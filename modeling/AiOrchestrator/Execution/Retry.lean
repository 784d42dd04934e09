import AiOrchestrator.Core.Errors
import Mathlib.Algebra.Order.Floor.Ring
import Mathlib.Data.Rat.Floor

/-!
# Retries

`getRetrySchedule` (`packages/core/src/retry/retry-policy.ts`) computes whether and after which delay an
attempt is repeated, and `executeWithRetry` (`packages/execution/src/retry/execute-with-retry.ts`)
repeats an operation by it. Numbers are exact rationals. The loop of `executeWithRetry` has no bound of
its own, so it is given fuel here; `exists_loop` says that it ends under every policy that is accepted.
-/

namespace AiOrchestrator

/-! ### Policies -/

structure RetryPolicy where
  maxAttempts : ℚ
  baseDelayMs : ℚ
  maxDelayMs : ℚ
  backoffMultiplier : ℚ
  jitterRatio : ℚ

/-- `Partial<RetryPolicy>`. -/
structure PartialRetryPolicy where
  maxAttempts : Option ℚ := none
  baseDelayMs : Option ℚ := none
  maxDelayMs : Option ℚ := none
  backoffMultiplier : Option ℚ := none
  jitterRatio : Option ℚ := none

/-- `DEFAULT_RETRY_POLICY`. -/
def defaultRetryPolicy : RetryPolicy where
  maxAttempts := 3
  baseDelayMs := 250
  maxDelayMs := 5000
  backoffMultiplier := 2
  jitterRatio := 1 / 5

/-- The policy with its defaults. -/
def PartialRetryPolicy.withDefaults (policy : PartialRetryPolicy) : RetryPolicy where
  maxAttempts := policy.maxAttempts.getD defaultRetryPolicy.maxAttempts
  baseDelayMs := policy.baseDelayMs.getD defaultRetryPolicy.baseDelayMs
  maxDelayMs := policy.maxDelayMs.getD defaultRetryPolicy.maxDelayMs
  backoffMultiplier := policy.backoffMultiplier.getD defaultRetryPolicy.backoffMultiplier
  jitterRatio := policy.jitterRatio.getD defaultRetryPolicy.jitterRatio

/-- `Number.isInteger`. -/
def isInteger (q : ℚ) : Bool := q.den = 1

/-- **`resolveRetryPolicy`**. -/
def resolveRetryPolicy (policy : PartialRetryPolicy) : Except RuntimeError RetryPolicy :=
  let resolved := policy.withDefaults
  if isInteger resolved.maxAttempts = false ∨ resolved.maxAttempts < 1 then
    .error (.plain "RetryPolicy: maxAttempts must be an integer >= 1")
  else if resolved.baseDelayMs < 0 then
    .error (.plain "RetryPolicy: baseDelayMs must be >= 0")
  else if resolved.maxDelayMs < resolved.baseDelayMs then
    .error (.plain "RetryPolicy: maxDelayMs must be >= baseDelayMs")
  else if resolved.backoffMultiplier < 1 then
    .error (.plain "RetryPolicy: backoffMultiplier must be >= 1")
  else if resolved.jitterRatio < 0 ∨ 1 < resolved.jitterRatio then
    .error (.plain "RetryPolicy: jitterRatio must be between 0 and 1")
  else .ok resolved

/-- **Valid policies.** -/
structure RetryPolicy.Valid (policy : RetryPolicy) : Prop where
  attempts : ∃ n : ℕ, 1 ≤ n ∧ policy.maxAttempts = n
  base : 0 ≤ policy.baseDelayMs
  cap : policy.baseDelayMs ≤ policy.maxDelayMs
  multiplier : 1 ≤ policy.backoffMultiplier
  jitter : 0 ≤ policy.jitterRatio ∧ policy.jitterRatio ≤ 1

theorem resolveRetryPolicy_eq_ok_iff {policy : PartialRetryPolicy} {resolved : RetryPolicy} :
    resolveRetryPolicy policy = .ok resolved ↔ resolved = policy.withDefaults ∧ resolved.Valid := by
  unfold resolveRetryPolicy
  dsimp only
  constructor
  · intro h
    split_ifs at h with hattempts hbase hcap hmultiplier hjitter
    obtain rfl := Except.ok.inj h
    rw [not_or, not_lt, Bool.not_eq_false] at hattempts
    rw [not_or, not_lt, not_lt] at hjitter
    refine ⟨rfl, ⟨?_, not_lt.mp hbase, not_lt.mp hcap, not_lt.mp hmultiplier, hjitter⟩⟩
    have hint : ((policy.withDefaults.maxAttempts.num : ℤ) : ℚ) = policy.withDefaults.maxAttempts :=
      Rat.den_eq_one_iff _ |>.mp (of_decide_eq_true hattempts.1)
    have hpos : 1 ≤ policy.withDefaults.maxAttempts.num := by
      have hle := hattempts.2
      rw [← hint] at hle
      exact_mod_cast hle
    refine ⟨policy.withDefaults.maxAttempts.num.toNat, by omega, ?_⟩
    rw [← hint]
    have hnat : ((policy.withDefaults.maxAttempts.num.toNat : ℕ) : ℤ) =
        policy.withDefaults.maxAttempts.num := by omega
    exact_mod_cast congrArg (Int.cast : ℤ → ℚ) hnat.symm
  · rintro ⟨rfl, hvalid⟩
    obtain ⟨n, hn, hattempts⟩ := hvalid.attempts
    rw [if_neg, if_neg (not_lt.mpr hvalid.base), if_neg (not_lt.mpr hvalid.cap),
      if_neg (not_lt.mpr hvalid.multiplier), if_neg]
    · rw [not_or, not_lt, not_lt]
      exact hvalid.jitter
    · rw [hattempts, not_or, Bool.not_eq_false, not_lt]
      refine ⟨?_, by exact_mod_cast hn⟩
      rw [isInteger, Rat.den_natCast]
      rfl

/-! ### Schedules -/

structure RetrySchedule where
  shouldRetry : Bool
  delayMs : ℤ

/-- The delay before jitter: grown by the attempts, and capped. -/
def exponentialDelay (policy : RetryPolicy) (attempt : ℕ) : ℚ :=
  min policy.maxDelayMs (policy.baseDelayMs * policy.backoffMultiplier ^ (attempt - 1))

/-- The delay with jitter, where the random source gives `random`. -/
def jitteredDelay (policy : RetryPolicy) (attempt : ℕ) (random : ℚ) : ℚ :=
  let jitterAmplitude := exponentialDelay policy attempt * policy.jitterRatio
  let jitterOffset := (random * 2 - 1) * jitterAmplitude
  exponentialDelay policy attempt + jitterOffset

/-- `Math.round`: to the nearest integer, halves up. -/
def mathRound (q : ℚ) : ℤ := ⌊q + 1 / 2⌋

/-- **`getRetrySchedule`**. -/
def getRetrySchedule (attempt : ℕ) (policy : PartialRetryPolicy) (random : ℚ) :
    Except RuntimeError RetrySchedule := do
  let resolvedPolicy ← resolveRetryPolicy policy
  if attempt < 1 then
    throw (.plain "RetryPolicy: attempt must be an integer >= 1")
  if resolvedPolicy.maxAttempts ≤ attempt then
    pure { shouldRetry := false, delayMs := 0 }
  else
    pure
      { shouldRetry := true
        delayMs := max 0 (mathRound (jitteredDelay resolvedPolicy attempt random)) }

/-! ### Executions -/

structure RetryFailure where
  code : String
  message : String
  retriable : Bool

structure RetryExecutionResult (α : Type) where
  ok : Bool
  value : Option α := none
  failure : Option RetryFailure := none

/-- What `executeWithRetry` finds around it: whether the signal of its caller has fired when it starts an
attempt, what the operation answers to the attempt, and behind it what the random source gives and
whether the wait comes to its end. -/
structure RetryEnvironment (α : Type) where
  aborted : ℕ → Bool
  execute : ℕ → Except RuntimeError (RetryExecutionResult α)
  random : ℕ → ℚ
  sleeps : ℕ → Bool

/-- A run: the attempts that were executed, the delays that were waited for, and the answer. -/
structure RetryRun (α : Type) where
  executed : List ℕ
  delays : List ℤ
  answer : Except RuntimeError (RetryExecutionResult α)

/-- `RETRY_CANCELLED`. -/
def retryCancelled {α : Type} (message : String) : RetryExecutionResult α where
  ok := false
  failure := some { code := "RETRY_CANCELLED", message, retriable := false }

/-- Whether a result lets the operation be repeated. -/
def RetryExecutionResult.isRetriable {α : Type} (result : RetryExecutionResult α) : Bool :=
  !result.ok && (result.failure.map RetryFailure.retriable).getD false

/-- The loop from an attempt on, for at most `fuel` rounds. -/
def retryLoop {α : Type} (env : RetryEnvironment α) (policy : PartialRetryPolicy) :
    (fuel attempt : ℕ) → Option (RetryRun α)
  | 0, _ => none
  | fuel + 1, attempt =>
    if env.aborted attempt then
      some { executed := [], delays := [], answer := .ok (retryCancelled "retry cancelled before attempt") }
    else
      match env.execute attempt with
      | .error e => some { executed := [attempt], delays := [], answer := .error e }
      | .ok result =>
        if !result.isRetriable then
          some { executed := [attempt], delays := [], answer := .ok result }
        else
          match getRetrySchedule attempt policy (env.random attempt) with
          | .error e => some { executed := [attempt], delays := [], answer := .error e }
          | .ok schedule =>
            if !schedule.shouldRetry then
              some { executed := [attempt], delays := [], answer := .ok result }
            else if !env.sleeps attempt then
              some
                { executed := [attempt]
                  delays := [schedule.delayMs]
                  answer := .ok (retryCancelled "retry cancelled during backoff") }
            else
              (retryLoop env policy fuel (attempt + 1)).map fun run =>
                { run with
                  executed := attempt :: run.executed
                  delays := schedule.delayMs :: run.delays }

/-- **`executeWithRetry`**, for at most `fuel` rounds. -/
def executeWithRetry {α : Type} (env : RetryEnvironment α) (policy : PartialRetryPolicy)
    (fuel : ℕ) : Option (RetryRun α) :=
  retryLoop env policy fuel 1

/-! ### Schedules -/

variable {α : Type} {env : RetryEnvironment α} {policy : PartialRetryPolicy} {resolved : RetryPolicy}

/-- The delay behind an attempt that is repeated. -/
def retryDelay (resolved : RetryPolicy) (attempt : ℕ) (random : ℚ) : ℤ :=
  max 0 (mathRound (jitteredDelay resolved attempt random))

theorem getRetrySchedule_last (hpolicy : resolveRetryPolicy policy = .ok resolved) {attempt : ℕ}
    (hattempt : 1 ≤ attempt) (hlast : resolved.maxAttempts ≤ attempt) (random : ℚ) :
    getRetrySchedule attempt policy random = .ok { shouldRetry := false, delayMs := 0 } := by
  have hpositive : ¬ attempt < 1 := Nat.not_lt.mpr hattempt
  rw [getRetrySchedule, hpolicy]
  simp only [bind, Except.bind, if_neg hpositive, if_pos hlast]
  rfl

theorem getRetrySchedule_retry (hpolicy : resolveRetryPolicy policy = .ok resolved) {attempt : ℕ}
    (hattempt : 1 ≤ attempt) (hmore : ¬ resolved.maxAttempts ≤ attempt) (random : ℚ) :
    getRetrySchedule attempt policy random =
      .ok { shouldRetry := true, delayMs := retryDelay resolved attempt random } := by
  have hpositive : ¬ attempt < 1 := Nat.not_lt.mpr hattempt
  rw [getRetrySchedule, hpolicy]
  simp only [bind, Except.bind, if_neg hpositive, if_neg hmore]
  rfl

/-- Jitter is a factor. -/
theorem jitteredDelay_eq (resolved : RetryPolicy) (attempt : ℕ) (random : ℚ) :
    jitteredDelay resolved attempt random =
      exponentialDelay resolved attempt * (1 + (2 * random - 1) * resolved.jitterRatio) := by
  unfold jitteredDelay
  ring

/-- **When a delay keeps the cap**: rounding must not lead beyond it. -/
theorem retryDelay_le_iff (hvalid : resolved.Valid) (attempt : ℕ) (random : ℚ) :
    (retryDelay resolved attempt random : ℚ) ≤ resolved.maxDelayMs ↔
      exponentialDelay resolved attempt * (1 + (2 * random - 1) * resolved.jitterRatio) <
        ⌊resolved.maxDelayMs⌋ + 1 / 2 := by
  have hcap : 0 ≤ resolved.maxDelayMs := hvalid.base.trans hvalid.cap
  have hfloor : (0 : ℤ) ≤ ⌊resolved.maxDelayMs⌋ := Int.floor_nonneg.mpr hcap
  rw [← jitteredDelay_eq, ← Int.le_floor, retryDelay, max_le_iff, and_iff_right hfloor, mathRound,
    ← Int.lt_add_one_iff, Int.floor_lt]
  push_cast
  constructor <;> intro h <;> linarith

/-! ### Runs -/

/-- **The runs** from an attempt on, by the ways in which a round can go. -/
inductive Repeats (env : RetryEnvironment α) (resolved : RetryPolicy) : ℕ → RetryRun α → Prop
  | aborted {attempt : ℕ} : env.aborted attempt = true →
      Repeats env resolved attempt
        { executed := [], delays := [], answer := .ok (retryCancelled "retry cancelled before attempt") }
  | thrown {attempt : ℕ} {e : RuntimeError} : env.aborted attempt = false →
      env.execute attempt = .error e →
      Repeats env resolved attempt { executed := [attempt], delays := [], answer := .error e }
  | stopped {attempt : ℕ} {result : RetryExecutionResult α} : env.aborted attempt = false →
      env.execute attempt = .ok result → result.isRetriable = false →
      Repeats env resolved attempt { executed := [attempt], delays := [], answer := .ok result }
  | exhausted {attempt : ℕ} {result : RetryExecutionResult α} : env.aborted attempt = false →
      env.execute attempt = .ok result → result.isRetriable = true → resolved.maxAttempts ≤ attempt →
      Repeats env resolved attempt { executed := [attempt], delays := [], answer := .ok result }
  | interrupted {attempt : ℕ} {result : RetryExecutionResult α} : env.aborted attempt = false →
      env.execute attempt = .ok result → result.isRetriable = true →
      ¬ resolved.maxAttempts ≤ attempt → env.sleeps attempt = false →
      Repeats env resolved attempt
        { executed := [attempt], delays := [retryDelay resolved attempt (env.random attempt)]
          answer := .ok (retryCancelled "retry cancelled during backoff") }
  | repeated {attempt : ℕ} {result : RetryExecutionResult α} {run : RetryRun α} :
      env.aborted attempt = false → env.execute attempt = .ok result → result.isRetriable = true →
      ¬ resolved.maxAttempts ≤ attempt → env.sleeps attempt = true →
      Repeats env resolved (attempt + 1) run →
      Repeats env resolved attempt
        { run with
          executed := attempt :: run.executed
          delays := retryDelay resolved attempt (env.random attempt) :: run.delays }

/-- What the loop returns is a run. -/
theorem repeats_of_loop (hpolicy : resolveRetryPolicy policy = .ok resolved) {fuel attempt : ℕ}
    (hattempt : 1 ≤ attempt) {run : RetryRun α} (h : retryLoop env policy fuel attempt = some run) :
    Repeats env resolved attempt run := by
  induction fuel generalizing attempt run with
  | zero => cases h
  | succ fuel ih =>
    rw [retryLoop] at h
    by_cases haborted : env.aborted attempt = true
    · rw [if_pos haborted] at h
      obtain rfl := Option.some.inj h
      exact Repeats.aborted haborted
    · rw [if_neg haborted] at h
      have hgoes : env.aborted attempt = false := Bool.not_eq_true _ ▸ haborted
      cases hexecute : env.execute attempt with
      | error e =>
        rw [hexecute] at h
        obtain rfl := Option.some.inj h
        exact Repeats.thrown hgoes hexecute
      | ok result =>
        simp only [hexecute] at h
        cases hretriable : result.isRetriable with
        | false =>
          rw [hretriable] at h
          obtain rfl := Option.some.inj h
          exact Repeats.stopped hgoes hexecute hretriable
        | true =>
          rw [hretriable] at h
          by_cases hlast : resolved.maxAttempts ≤ attempt
          · rw [getRetrySchedule_last hpolicy hattempt hlast] at h
            obtain rfl := Option.some.inj h
            exact Repeats.exhausted hgoes hexecute hretriable hlast
          · rw [getRetrySchedule_retry hpolicy hattempt hlast] at h
            cases hsleeps : env.sleeps attempt with
            | false =>
              rw [hsleeps] at h
              obtain rfl := Option.some.inj h
              exact Repeats.interrupted hgoes hexecute hretriable hlast hsleeps
            | true =>
              rw [hsleeps] at h
              obtain ⟨rest, hrest, rfl⟩ := Option.map_eq_some_iff.mp h
              exact Repeats.repeated hgoes hexecute hretriable hlast hsleeps
                (ih (Nat.le_add_left 1 attempt) hrest)

/-- **Termination**: the loop returns when its fuel goes beyond the attempts that are left. -/
theorem exists_loop (hpolicy : resolveRetryPolicy policy = .ok resolved) {n : ℕ}
    (hn : resolved.maxAttempts = n) {fuel attempt : ℕ} (hattempt : 1 ≤ attempt) (hleft : attempt ≤ n)
    (hfuel : n < attempt + fuel) : ∃ run, retryLoop env policy fuel attempt = some run := by
  induction fuel generalizing attempt with
  | zero => exact absurd hleft (Nat.not_le.mpr hfuel)
  | succ fuel ih =>
    rw [retryLoop]
    by_cases haborted : env.aborted attempt = true
    · rw [if_pos haborted]
      exact ⟨_, rfl⟩
    · rw [if_neg haborted]
      cases hexecute : env.execute attempt with
      | error e => exact ⟨_, rfl⟩
      | ok result =>
        cases hretriable : result.isRetriable with
        | false => exact ⟨_, by simp only [hretriable]; rfl⟩
        | true =>
          by_cases hlast : resolved.maxAttempts ≤ attempt
          · exact ⟨_, by
              simp only [hretriable, getRetrySchedule_last hpolicy hattempt hlast]
              rfl⟩
          · cases hsleeps : env.sleeps attempt with
            | false => exact ⟨_, by
                simp only [hretriable, getRetrySchedule_retry hpolicy hattempt hlast]
                rfl⟩
            | true =>
              have hmore : attempt < n := by
                rw [hn, not_le] at hlast
                exact_mod_cast hlast
              obtain ⟨rest, hrest⟩ := ih (Nat.le_add_left 1 attempt) hmore (by omega)
              exact ⟨_, by
                simp only [hretriable, getRetrySchedule_retry hpolicy hattempt hlast, hrest]
                rfl⟩

/-- An environment has one run. -/
theorem Repeats.unique {attempt : ℕ} {run run' : RetryRun α} (h : Repeats env resolved attempt run)
    (h' : Repeats env resolved attempt run') : run = run' := by
  induction h generalizing run' with
  | aborted haborted => cases h' <;> simp_all
  | thrown haborted hexecute => cases h' <;> simp_all
  | stopped haborted hexecute hretriable => cases h' <;> simp_all
  | exhausted haborted hexecute hretriable hlast => cases h' <;> simp_all
  | interrupted haborted hexecute hretriable hlast hsleeps => cases h' <;> simp_all
  | repeated haborted hexecute hretriable hlast hsleeps hrest ih =>
    cases h' with
    | repeated _ _ _ _ _ hrest' => rw [ih hrest']
    | _ => simp_all

/-- **Cancellation**: once the signal has fired behind an attempt, no later one is executed. -/
theorem Repeats.le_of_cancelled {attempt : ℕ} {run : RetryRun α} (h : Repeats env resolved attempt run)
    {k : ℕ} (hcancelled : env.aborted (k + 1) = true ∨ 1 ≤ k ∧ env.sleeps k = false)
    (hstart : attempt ≤ k ∨ attempt = k + 1 ∧ env.aborted (k + 1) = true) :
    ∀ executed ∈ run.executed, executed ≤ k := by
  have hreached : ∀ {attempt : ℕ}, env.aborted attempt = false →
      (attempt ≤ k ∨ attempt = k + 1 ∧ env.aborted (k + 1) = true) → attempt ≤ k := by
    intro attempt hgoes hstart
    rcases hstart with hle | ⟨rfl, haborted⟩
    · exact hle
    · rw [hgoes] at haborted
      cases haborted
  induction h with
  | aborted => exact fun _ hmem => absurd hmem List.not_mem_nil
  | thrown hgoes => exact fun _ hmem => List.mem_singleton.mp hmem ▸ hreached hgoes hstart
  | stopped hgoes => exact fun _ hmem => List.mem_singleton.mp hmem ▸ hreached hgoes hstart
  | exhausted hgoes => exact fun _ hmem => List.mem_singleton.mp hmem ▸ hreached hgoes hstart
  | interrupted hgoes => exact fun _ hmem => List.mem_singleton.mp hmem ▸ hreached hgoes hstart
  | @repeated attempt _ _ hgoes _ _ _ hsleeps _ ih =>
    have hle := hreached hgoes hstart
    have hnext : attempt + 1 ≤ k ∨ attempt + 1 = k + 1 ∧ env.aborted (k + 1) = true := by
      rcases Nat.lt_or_eq_of_le hle with hlt | rfl
      · exact Or.inl hlt
      · refine Or.inr ⟨rfl, hcancelled.resolve_right fun h => ?_⟩
        rw [hsleeps] at h
        cases h.2
    intro executed hmem
    rcases List.mem_cons.mp hmem with rfl | hmem
    · exact hle
    · exact ih hnext executed hmem

/-- The signal never fires. -/
def Uncancelled (env : RetryEnvironment α) : Prop :=
  (∀ attempt, env.aborted attempt = false) ∧ ∀ attempt, env.sleeps attempt = true

/-- The operation answers with these results. -/
def Answers (env : RetryEnvironment α) (results : ℕ → RetryExecutionResult α) : Prop :=
  ∀ attempt, env.execute attempt = .ok (results attempt)

/-- A run from an attempt on that ends with the result of its last execution. -/
structure EndsWith (resolved : RetryPolicy) (env : RetryEnvironment α)
    (results : ℕ → RetryExecutionResult α) (first last : ℕ) (run : RetryRun α) : Prop where
  first_le : first ≤ last
  repeated : ∀ k, first ≤ k → k < last →
    (results k).isRetriable = true ∧ ¬ resolved.maxAttempts ≤ k
  ended : (results last).isRetriable = false ∨ resolved.maxAttempts ≤ last
  executed : run.executed = List.range' first (last + 1 - first)
  delays : run.delays = (List.range' first (last - first)).map fun k =>
    retryDelay resolved k (env.random k)
  answer : run.answer = .ok (results last)

/-- **Runs without cancellation** end with the result of their last execution. -/
theorem Repeats.endsWith {attempt : ℕ} {run : RetryRun α} (h : Repeats env resolved attempt run)
    (huncancelled : Uncancelled env) {results : ℕ → RetryExecutionResult α}
    (hanswers : Answers env results) : ∃ last, EndsWith resolved env results attempt last run := by
  have hresult : ∀ {attempt : ℕ} {result : RetryExecutionResult α},
      env.execute attempt = .ok result → result = results attempt := fun hexecute =>
    Except.ok.inj (hexecute.symm.trans (hanswers _))
  have hnone : ∀ {attempt : ℕ} {P : ℕ → Prop}, ∀ k, attempt ≤ k → k < attempt → P k :=
    fun k hle hlt => absurd hlt (Nat.not_lt.mpr hle)
  induction h with
  | aborted haborted =>
    rw [huncancelled.1] at haborted
    cases haborted
  | thrown _ hexecute =>
    rw [hanswers] at hexecute
    cases hexecute
  | @stopped attempt result _ hexecute hretriable =>
    obtain rfl := hresult hexecute
    exact ⟨attempt, ⟨le_rfl, hnone, Or.inl hretriable, by simp, by simp, rfl⟩⟩
  | @exhausted attempt result _ hexecute hretriable hlast =>
    obtain rfl := hresult hexecute
    exact ⟨attempt, ⟨le_rfl, hnone, Or.inr hlast, by simp, by simp, rfl⟩⟩
  | interrupted _ _ _ _ hsleeps =>
    rw [huncancelled.2] at hsleeps
    cases hsleeps
  | @repeated attempt result run _ hexecute hretriable hlast _ _ ih =>
    obtain rfl := hresult hexecute
    obtain ⟨last, hrest⟩ := ih
    have hlater := hrest.first_le
    refine ⟨last, ⟨by omega, ?_, hrest.ended, ?_, ?_, hrest.answer⟩⟩
    · intro k hle hlt
      rcases Nat.eq_or_lt_of_le hle with rfl | hlater
      · exact ⟨hretriable, hlast⟩
      · exact hrest.repeated k hlater hlt
    · have hcount : last + 1 - attempt = (last + 1 - (attempt + 1)) + 1 := by omega
      show attempt :: run.executed = _
      rw [hrest.executed, hcount, List.range'_succ]
    · have hcount : last - attempt = (last - (attempt + 1)) + 1 := by omega
      show _ :: run.delays = _
      rw [hrest.delays, hcount, List.range'_succ]
      rfl

end AiOrchestrator
