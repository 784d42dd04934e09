import AiOrchestrator.Execution.Retry
import Mathlib.Tactic.Linarith
import Mathlib.Tactic.NormNum

/-!
# Retries end, and when their delays keep the cap

`executeWithRetry_correct_iff`: under every policy that is accepted the loop returns, executes the
attempts in order up to the first result that ends the repetition, and executes none after a
cancellation. The jitter is added after the cap, so a delay goes beyond it exactly if the jitter does;
`delay_beyond_cap` shows such a run.
-/

namespace AiOrchestrator

variable {α : Type} {env : RetryEnvironment α} {resolved : RetryPolicy}

/-! ### Counts and delays -/

/-- The first result that ends the repetition. -/
def FirstStop (results : ℕ → RetryExecutionResult α) (k : ℕ) : Prop :=
  1 ≤ k ∧ (results k).isRetriable = false ∧ ∀ i, 1 ≤ i → i < k → (results i).isRetriable = true

/-- **The number of executions**: up to the first result that ends the repetition, and at most as many
as the policy allows. -/
def ExecutionCount (resolved : RetryPolicy) (results : ℕ → RetryExecutionResult α) (n : ℕ) : Prop :=
  (∀ k, FirstStop results k → (n : ℚ) = min resolved.maxAttempts k) ∧
    ((∀ k, 1 ≤ k → (results k).isRetriable = true) → (n : ℚ) = resolved.maxAttempts)

/-- Every delay lies between zero and the cap. -/
def DelaysCapped (resolved : RetryPolicy) (run : RetryRun α) : Prop :=
  ∀ delay ∈ run.delays, 0 ≤ delay ∧ (delay : ℚ) ≤ resolved.maxDelayMs

/-- The jitter behind an attempt does not lead to a delay beyond the cap. -/
def JitterCapped (resolved : RetryPolicy) (attempt : ℕ) (random : ℚ) : Prop :=
  exponentialDelay resolved attempt * (1 + (2 * random - 1) * resolved.jitterRatio) <
    ⌊resolved.maxDelayMs⌋ + 1 / 2

theorem EndsWith.executionCount {results : ℕ → RetryExecutionResult α} {last : ℕ} {run : RetryRun α}
    (h : EndsWith resolved env results 1 last run) (hvalid : resolved.Valid) :
    ExecutionCount resolved results last := by
  obtain ⟨n, hn, hattempts⟩ := hvalid.attempts
  have hlast : last ≤ n := by
    by_contra hbeyond
    have hbefore := (h.repeated n hn (Nat.not_le.mp hbeyond)).2
    exact hbefore hattempts.le
  have hended : (results last).isRetriable = false ∨ last = n := by
    refine h.ended.imp_right fun hle => le_antisymm hlast ?_
    rw [hattempts] at hle
    exact_mod_cast hle
  rw [ExecutionCount, hattempts]
  constructor
  · rintro k ⟨hk, hstop, hfirst⟩
    have hle : last ≤ k := by
      by_contra hbeyond
      rw [(h.repeated k hk (Nat.not_le.mp hbeyond)).1] at hstop
      cases hstop
    have hmin : last = min n k := by
      rcases hended with hretriable | rfl
      · have hge : k ≤ last := by
          by_contra hbefore
          rw [hfirst last h.first_le (Nat.not_le.mp hbefore)] at hretriable
          cases hretriable
        omega
      · omega
    exact_mod_cast congrArg (Nat.cast : ℕ → ℚ) hmin
  · intro hall
    rcases hended with hretriable | rfl
    · rw [hall last h.first_le] at hretriable
      cases hretriable
    · rfl

theorem EndsWith.delaysCapped_iff {results : ℕ → RetryExecutionResult α} {last : ℕ} {run : RetryRun α}
    (h : EndsWith resolved env results 1 last run) (hvalid : resolved.Valid) :
    DelaysCapped resolved run ↔
      ∀ k : ℕ, 1 ≤ k → (k : ℚ) < resolved.maxAttempts →
        (∀ i, 1 ≤ i → i ≤ k → (results i).isRetriable = true) →
          JitterCapped resolved k (env.random k) := by
  have hrepeated : ∀ k : ℕ, (1 ≤ k ∧ k < last) ↔ (1 ≤ k ∧ (k : ℚ) < resolved.maxAttempts ∧
      ∀ i, 1 ≤ i → i ≤ k → (results i).isRetriable = true) := by
    intro k
    constructor
    · rintro ⟨hk, hlt⟩
      refine ⟨hk, not_le.mp (h.repeated k hk hlt).2, fun i hi hle => ?_⟩
      exact (h.repeated i hi (lt_of_le_of_lt hle hlt)).1
    · rintro ⟨hk, hattempts, hretriable⟩
      refine ⟨hk, ?_⟩
      by_contra hbeyond
      have hlast : last ≤ k := Nat.not_lt.mp hbeyond
      rcases h.ended with hstop | hcap
      · rw [hretriable last h.first_le hlast] at hstop
        cases hstop
      · have hcast : (last : ℚ) ≤ k := by exact_mod_cast hlast
        exact absurd hattempts (not_lt.mpr (hcap.trans hcast))
  have hdelays : DelaysCapped resolved run ↔ ∀ k, 1 ≤ k ∧ k < last →
      JitterCapped resolved k (env.random k) := by
    rw [DelaysCapped, h.delays, List.forall_mem_map]
    refine forall_congr' fun k => ?_
    have hmem : k ∈ List.range' 1 (last - 1) ↔ 1 ≤ k ∧ k < last := by
      rw [List.mem_range'_1]
      omega
    have hnonneg : 0 ≤ retryDelay resolved k (env.random k) := le_max_left _ _
    rw [hmem, retryDelay_le_iff hvalid, and_iff_right hnonneg]
    rfl
  rw [hdelays]
  constructor
  · intro hcapped k hk hattempts hretriable
    exact hcapped k ((hrepeated k).mpr ⟨hk, hattempts, hretriable⟩)
  · intro hcapped k hk
    obtain ⟨hpositive, hattempts, hretriable⟩ := (hrepeated k).mp hk
    exact hcapped k hpositive hattempts hretriable

/-- **Retries.** Under a valid policy `executeWithRetry` returns, whatever happens around it. Without
cancellation it executes the attempts `1, 2, …` up to the first result that ends the repetition or the
last attempt of the policy, and answers with the last result; every delay lies between zero and the cap
exactly if at each attempt that is repeated the jitter keeps below the cap. After a cancellation no
further attempt is executed. -/
theorem executeWithRetry_correct_iff (env : RetryEnvironment α) {policy : PartialRetryPolicy}
    {resolved : RetryPolicy} (hpolicy : resolveRetryPolicy policy = .ok resolved) :
    ∃ run, (∃ fuel, executeWithRetry env policy fuel = some run) ∧
      (∀ fuel run', executeWithRetry env policy fuel = some run' → run' = run) ∧
      (∀ results, Uncancelled env → Answers env results →
        (∃ n, run.executed = List.range' 1 n ∧ ExecutionCount resolved results n ∧
          run.answer = .ok (results n)) ∧
        (DelaysCapped resolved run ↔
          ∀ k : ℕ, 1 ≤ k → (k : ℚ) < resolved.maxAttempts →
            (∀ i, 1 ≤ i → i ≤ k → (results i).isRetriable = true) →
              JitterCapped resolved k (env.random k))) ∧
      ∀ k, (env.aborted (k + 1) = true ∨ 1 ≤ k ∧ env.sleeps k = false) →
        ∀ executed ∈ run.executed, executed ≤ k := by
  have hvalid := (resolveRetryPolicy_eq_ok_iff.mp hpolicy).2
  obtain ⟨n, hn, hattempts⟩ := hvalid.attempts
  obtain ⟨run, hrun⟩ := @exists_loop _ env _ _ hpolicy n hattempts n 1 le_rfl hn (show n < 1 + n by omega)
  have hrepeats := repeats_of_loop hpolicy le_rfl hrun
  refine ⟨run, ⟨n, hrun⟩, fun fuel run' hrun' => ?_, fun results huncancelled hanswers => ?_,
    fun k hcancelled => ?_⟩
  · exact (repeats_of_loop hpolicy le_rfl hrun').unique hrepeats
  · obtain ⟨last, hends⟩ := hrepeats.endsWith huncancelled hanswers
    refine ⟨⟨last, ?_, hends.executionCount hvalid, hends.answer⟩, hends.delaysCapped_iff hvalid⟩
    rw [hends.executed, Nat.add_sub_cancel]
  · refine hrepeats.le_of_cancelled hcancelled ?_
    rcases Nat.eq_zero_or_pos k with rfl | hk
    · exact Or.inr ⟨rfl, hcancelled.resolve_right fun h => absurd h.1 (by decide)⟩
    · exact Or.inl hk

/-! ### Policies -/

/-- A policy with a cap of 250 milliseconds and a jitter of one tenth. -/
def cappedPolicy : PartialRetryPolicy where
  maxAttempts := some 4
  baseDelayMs := some 100
  maxDelayMs := some 250
  backoffMultiplier := some 2
  jitterRatio := some (1 / 10)

theorem cappedPolicy_resolved :
    resolveRetryPolicy cappedPolicy = .ok cappedPolicy.withDefaults := by
  refine resolveRetryPolicy_eq_ok_iff.mpr ⟨rfl, ⟨4, by decide, by norm_num [PartialRetryPolicy.withDefaults, cappedPolicy]⟩, ?_, ?_, ?_, ?_⟩ <;>
    norm_num [PartialRetryPolicy.withDefaults, cappedPolicy]

/-- An operation that fails each time, and a random source that always gives one number. -/
def failingEnvironment (random : ℚ) : RetryEnvironment Unit where
  aborted := fun _ => false
  execute := fun _ => .ok
    { ok := false
      failure := some { code := "TEMP", message := "temporary", retriable := true } }
  random := fun _ => random
  sleeps := fun _ => true

/-- With the middle of the random numbers the delays keep the cap. -/
theorem executeWithRetry_correct_iff_middle :
    ∃ run, (∃ fuel, executeWithRetry (failingEnvironment (1 / 2)) cappedPolicy fuel = some run) ∧
      DelaysCapped cappedPolicy.withDefaults run := by
  obtain ⟨run, hrun, -, hall, -⟩ :=
    executeWithRetry_correct_iff (failingEnvironment (1 / 2)) cappedPolicy_resolved
  obtain ⟨-, hcapped⟩ := hall _ ⟨fun _ => rfl, fun _ => rfl⟩ (fun _ => rfl)
  refine ⟨run, hrun, hcapped.mpr fun k _ _ _ => ?_⟩
  have hcap : cappedPolicy.withDefaults.maxDelayMs = 250 := rfl
  have hle : exponentialDelay cappedPolicy.withDefaults k ≤ 250 := min_le_left _ _
  have hmiddle : (2 * (1 / 2 : ℚ) - 1) = 0 := by norm_num
  show exponentialDelay cappedPolicy.withDefaults k *
    (1 + (2 * (1 / 2) - 1) * cappedPolicy.withDefaults.jitterRatio) < _
  rw [hmiddle, hcap, zero_mul, add_zero, mul_one]
  have hfloor : ⌊(250 : ℚ)⌋ = 250 := Int.floor_natCast 250
  rw [hfloor]
  push_cast
  linarith

/-- **A delay beyond the cap**: with the largest random number the third delay is 275 milliseconds. -/
theorem delay_beyond_cap :
    (executeWithRetry (failingEnvironment 1) cappedPolicy 4).map RetryRun.delays =
        some [110, 220, 275] ∧
      cappedPolicy.withDefaults.maxDelayMs = 250 := by
  refine ⟨?_, rfl⟩
  decide +kernel

end AiOrchestrator
