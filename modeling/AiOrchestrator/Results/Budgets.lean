import AiOrchestrator.Execution.Overlaps
import AiOrchestrator.Results.Runs

/-!
# Budgets

What the calls of one orchestrator do to the budgets of one another.
-/

namespace AiOrchestrator

namespace Overlaps

/-- **The totals are the usage of the active run unless a reset has lost some of it.** In every
interleaving of `runCycle` calls, whatever their operations answer and other clients store: for each
call, the totals that `enforceBudgets` compares with the budgets are the usage recorded since the call
began, and for its task since that began, if and only if the resets of other calls since then found no
usage to remove. Wherever a call has a role work, no role of it has worked on anything else since its
latest check, and the totals that it found there were below the budgets, so that its usage was, where
they were that usage. The operations of a call without
the lease are harmless to the others, apart from the reset, and such a call returns that the lock is
unavailable, or fails. -/
theorem budgets_count_iff {ι : Type} [DecidableEq ι] {host : Host} {rt : Runtime}
    {options : ι → Runtime.RunCycleOptions} {shared : Shared} {store : Store} {repo : Repo}
    {states : ι → ProjectState} {moves : List (Move ι Answer Store)}
    {q : Pool ι Op Op.Ans (Except RuntimeError RunCycleResult) (Cycles ι)}
    (run : (start rt options shared store repo states).run (server host) moves = some q) :
    (∀ i, q.state.shared.cost.totals = q.state.since i ↔ q.state.lost i = .none) ∧
    (∀ i o k work, q.threads i = .ask o k → o.work = some work →
      ∃ check, q.state.checks i = some check ∧ check.GoodFor work ∧
        rt.WithinBudgets check.cost.totals ∧ (check.cost.totals = check.since ↔ check.lost = .none) ∧
        (check.lost = .none → rt.WithinBudgets check.since)) ∧
    (∀ i answer r, q.move (server host) (.client i answer) = some r → r.state.leased i = false →
      Harmless i q.state r.state) ∧
    ∀ i r, q.threads i = .ret (.ok r) → q.state.leased i = false →
      r.stopReason = some "run_lock_unavailable" := by
  obtain ⟨haccount, -⟩ := accounted_of_run run
  have hsafe := safe_of_run run
  have htotals : ∀ {totals lost since : Usage}, totals.add lost = since →
      (totals = since ↔ lost = .none) := by
    rintro totals lost - rfl
    rw [eq_comm]
    exact Usage.add_eq_left_iff
  refine ⟨fun i => htotals (haccount i), fun i o k work hask hwork => ?_,
    fun i answer r hmove hfalse => ?_, fun i r hresult hfalse => ?_⟩
  · obtain ⟨check, hcheck, hgood, hwithin, hsum⟩ := roles_checked run hask hwork
    refine ⟨check, hcheck, hgood, hwithin, htotals hsum, fun hlost => ?_⟩
    rw [← (htotals hsum).mpr hlost]
    exact hwithin
  · exact (hsafe.guar_of_move hmove).harmless hfalse
  · have hout := hsafe i
    rw [hresult] at hout
    exact (hout hfalse r rfl).2

/-- A platform whose `JSON.stringify` writes numbers in decimal. -/
def jsonHost : Host :=
  { Runtime.sampleHost with stringify := fun json => String.ofList (json.render toString) }

/-- An orchestrator on this platform, whose runs may use a single token. -/
def jsonRuntime : Runtime :=
  { Runtime.sampleRuntime with
    host := jsonHost
    config := { Runtime.sampleConfig with tokenBudgetPerRun := some 1 } }

/-- Answers without a failure, where the lease is acquired or not. -/
def leaseAnswer (acquired : Bool) : Answer :=
  { Runtime.sampleAnswer "" .now (Runtime.sampleWorld ProjectState.oneTask) with flag := acquired }

/-- Two cycles of an orchestrator on a project with one task. -/
def twoCycles : Pool (Fin 2) Op Op.Ans (Except RuntimeError RunCycleResult) (Cycles (Fin 2)) :=
  let world := Runtime.sampleWorld ProjectState.oneTask
  start jsonRuntime (fun _ => {}) world.shared world.store world.repo fun _ => world.state

/-- Operations of one of them, which gets the lease or does not. -/
def operations (i : Fin 2) (acquired : Bool) (n : Nat) : List (Move (Fin 2) Answer Store) :=
  List.replicate n (.client i (leaseAnswer acquired))

/-- The second cycle begins before the first one has recorded usage: the totals are the usage of the
first one, and when its task manager works, its usage was below the budgets at the check. -/
theorem budgets_count_iff_before :
    ∃ q, twoCycles.run (server jsonHost)
        (operations 0 true 9 ++ operations 1 false 4 ++ operations 0 true 1) = some q ∧
      q.state.leased 0 = true ∧ q.state.shared.cost.totals = q.state.since 0 ∧
      ∃ check, q.state.checks 0 = some check ∧ jsonRuntime.WithinBudgets check.since := by
  have run : twoCycles.run (server jsonHost)
      (operations 0 true 9 ++ operations 1 false 4 ++ operations 0 true 1) = some _ := rfl
  obtain ⟨htotals, hroles, -⟩ := budgets_count_iff run
  obtain ⟨check, hcheck, -, -, -, hwithin⟩ := hroles 0 .selectionState _ .selection rfl rfl
  obtain rfl := Option.some.inj hcheck
  exact ⟨_, run, rfl, (htotals 0).mpr rfl, _, rfl, hwithin rfl⟩

/-- Every text counts as one token at least, which is what a run may use. -/
theorem not_withinBudgets_add_estimate (u : Usage) (text : String) (cost : Nat) :
    ¬ jsonRuntime.WithinBudgets (u.add ⟨estimateTokens text, estimateTokens text, cost⟩) := by
  intro hwithin
  have hless : u.tokens + estimateTokens text < 1 := Nat.lt_of_not_le (of_decide_eq_false hwithin.run)
  unfold estimateTokens at hless
  omega

/-- **A refused cycle resets the tracker of the active one**: the first cycle has the lease and has
counted the tokens of a request when the second one begins, which is refused the lease. The totals are
zero again, and pass the check of a budget that the first cycle has used up. -/
theorem budget_reset :
    ∃ q, twoCycles.run (server jsonHost) (operations 0 true 10 ++ operations 1 false 4) = some q ∧
      q.state.leased 0 = true ∧
      (∃ r, q.threads 1 = .ret (.ok r) ∧ r.stopReason = some "run_lock_unavailable") ∧
      q.state.shared.cost.totals = .none ∧
      (∀ model role, jsonRuntime.enforceBudgets q.state.shared.cost model role = .ok ()) ∧
      ¬ jsonRuntime.WithinBudgets (q.state.since 0) := by
  have run : twoCycles.run (server jsonHost)
      (operations 0 true 10 ++ operations 1 false 4) = some _ := rfl
  refine ⟨_, run, rfl, ⟨_, rfl, rfl⟩, rfl, fun _ _ => rfl, ?_⟩
  exact not_withinBudgets_add_estimate _ _ _

end Overlaps

end AiOrchestrator
