import AiOrchestrator.Execution.BudgetChecks
import AiOrchestrator.Lib.Interleave

/-!
# Overlapping cycles

Any number of `runCycle` calls on one orchestrator, whose operations interleave. Each call has its
own copy of the state; the recorder, the cost tracker, the store and the repository are shared, and
other clients may write to the store at any time. Nothing is assumed about which calls acquire the
lease.

`runCycle` resets the cost tracker before it asks for the lease, and each run of a task resets the
part of its task. Two ghosts say what this does to the other calls: `since i` is the usage that was
recorded since the call `i` began, and the part of it for its task since that began, and `lost i` is
what resets of other calls have removed of it from the tracker. The invariant `Accounted` is that the
totals and `lost i` make up `since i`. A third ghost keeps what a call found at its latest check of the
budgets, which is good for the work of one role on one request (`roles_checked`). Apart from the reset a call that has not
acquired the lease is harmless (`Harmless`).
-/

namespace AiOrchestrator

/-- A check of the budgets, with the ghosts at that time. -/
structure BudgetCheck extends LatestCheck where
  since : Usage
  lost : Usage

/-- The check after an operation. -/
def BudgetCheck.after (o : Op) (check : BudgetCheck) : BudgetCheck :=
  { check with toLatestCheck := check.toLatestCheck.after o }

namespace Overlaps

/-- What the calls `ι` share, their copies, and the ghosts. -/
structure Cycles (ι : Type) where
  shared : Shared
  store : Store
  repo : Repo
  executed : List String
  states : ι → ProjectState
  heldSince : ι → List Commit
  /-- The call has acquired the lease. -/
  leased : ι → Bool
  since : ι → Usage
  lost : ι → Usage
  checks : ι → Option BudgetCheck

section Semantics

variable {ι : Type} [DecidableEq ι]

/-- The world of the call `i`. -/
def Cycles.world (s : Cycles ι) (i : ι) : World where
  state := s.states i
  shared := s.shared
  store := s.store
  repo := s.repo
  executed := s.executed
  heldSince := s.heldSince i

/-- The world of the call `i` after an operation. -/
def Cycles.put (s : Cycles ι) (i : ι) (w : World) : Cycles ι :=
  { s with
    shared := w.shared, store := w.store, repo := w.repo, executed := w.executed
    states := Function.update s.states i w.state
    heldSince := Function.update s.heldSince i w.heldSince }

/-- What an operation of the call `i` is for the ghosts. -/
def Cycles.note (s : Cycles ι) (i : ι) : (o : Op) → o.Ans → Cycles ι
  | .updateShared .resetRun, _ =>
    { s with
      since := Function.update s.since i .none
      lost := Function.update (fun j => (s.lost j).add s.shared.cost.totals) i .none }
  | .updateShared .resetTask, _ =>
    { s with
      since := Function.update s.since i (s.since i).resetTask
      lost := Function.update (fun j => (s.lost j).add s.shared.cost.totals.ofTask) i
        (s.lost i).resetTask }
  | .updateShared (.tokenUsage tokens cost), _ =>
    { s with since := fun j => (s.since j).add ⟨tokens, tokens, cost⟩ }
  | .updateShared _, _ => s
  | .acquireRunLease, answer =>
    { s with leased := Function.update s.leased i (s.leased i || answer.toOption.getD false) }
  | .readCost, _ =>
    { s with
      checks := Function.update s.checks i (some ⟨⟨s.shared.cost, none⟩, s.since i, s.lost i⟩) }
  | o, _ =>
    { s with checks := Function.update s.checks i ((s.checks i).map (BudgetCheck.after o)) }

/-- **The calls**: an operation of one of them, or a change of the store by another client. -/
def server (host : Host) : Server ι Op Op.Ans (Cycles ι) Answer Store where
  serve i answer o s :=
    let (x, w) := o.handle host answer (s.world i)
    some (x, (s.note i o x).put i w)
  drift store s := some { s with store }

/-- Calls of `runCycle`, before the first operation. -/
def start (rt : Runtime) (options : ι → Runtime.RunCycleOptions) (shared : Shared) (store : Store)
    (repo : Repo) (states : ι → ProjectState) :
    Pool ι Op Op.Ans (Except RuntimeError RunCycleResult) (Cycles ι) where
  threads i := (rt.runCycle (options i)).run
  state :=
    { shared, store, repo, executed := [], states, heldSince := fun _ => []
      leased := fun _ => false, since := fun _ => shared.cost.totals, lost := fun _ => .none
      checks := fun _ => none }

end Semantics

/-! ### The account of the tracker -/

/-- What an operation does to the cost tracker. -/
theorem cost_of_handle (host : Host) (answer : Answer) (o : Op) (w : World) :
    (o.handle host answer w).2.shared.cost =
      match o with
      | .updateShared u => (u.apply w.shared).cost
      | _ => w.shared.cost := by
  have hfallible : ∀ {α : Type} {r : Except RuntimeError α × World},
      r.2.shared.cost = w.shared.cost →
      (answer.fallible w r).2.shared.cost = w.shared.cost := by
    intro α r hr
    unfold Answer.fallible
    split
    · rfl
    · exact hr
  cases o with
  | flush =>
    simp only [Op.handle, flushToState]
    split <;> rfl
  | write call =>
    simp only [Op.handle]
    refine hfallible ?_
    split <;> rfl
  | executeRole name req context | executeRoleStep name req context observations =>
    simp only [Op.handle]
    have hmark : (w.markExecuted req).shared = w.shared := by
      unfold World.markExecuted
      split <;> rfl
    unfold Answer.fallible
    split <;> rw [hmark]
  | now | dateNow | randomUUID | aborted | readState | selectionState | update _ | readShared
  | readCost
  | updateShared _ => rfl
  | _ => exact hfallible rfl

variable {ι : Type} [DecidableEq ι] {host : Host} {i j : ι} {s t : Cycles ι}

/-- **The account**: what the tracker counts and what the call `i` has lost make up the usage since
its beginning. -/
def Accounted (s : Cycles ι) : Prop :=
  ∀ i, s.shared.cost.totals.add (s.lost i) = s.since i

theorem Accounted.serve {answer : Answer} {o : Op} {x : o.Ans} (hs : Accounted s)
    (h : (server host).serve i answer o s = some (x, t)) : Accounted t := by
  obtain ⟨rfl, rfl⟩ := Prod.mk.inj (Option.some.inj h)
  have hcost := cost_of_handle host answer o (s.world i)
  intro k
  have hk := hs k
  -- where neither usage nor a reset is noted, nothing of the account changes
  have hsame : ∀ u : Cycles ι,
      (o.handle host answer (s.world i)).2.shared.cost.totals = s.shared.cost.totals →
      u.lost = s.lost → u.since = s.since →
      (o.handle host answer (s.world i)).2.shared.cost.totals.add (u.lost k) = u.since k := by
    intro u htotals hlost hsince
    rw [htotals, hlost, hsince]
    exact hk
  cases o with
  | updateShared u =>
    cases u with
    -- A reset forgets the totals for all cycles, and is a loss to all but the one that resets.
    | resetRun =>
      show Usage.none.add (Function.update (fun j => (s.lost j).add s.shared.cost.totals) i .none k) =
        Function.update s.since i .none k
      by_cases hki : k = i
      · subst hki
        rw [Function.update_self, Function.update_self, Usage.add_none]
      · rw [Function.update_of_ne hki, Function.update_of_ne hki, Usage.none_add, Usage.add_comm]
        exact hk
    -- The same for the totals of the task.
    | resetTask =>
      show s.shared.cost.totals.resetTask.add
          (Function.update (fun j => (s.lost j).add s.shared.cost.totals.ofTask) i
            (s.lost i).resetTask k) = Function.update s.since i (s.since i).resetTask k
      by_cases hki : k = i
      · subst hki
        rw [Function.update_self, Function.update_self, ← hk, Usage.resetTask_add]
      · rw [Function.update_of_ne hki, Function.update_of_ne hki, Usage.resetTask_add_ofTask]
        exact hk
    | tokenUsage tokens cost =>
      show (s.shared.cost.totals.add ⟨tokens, tokens, cost⟩).add (s.lost k) =
        (s.since k).add ⟨tokens, tokens, cost⟩
      rw [Usage.add_right_comm, hk]
    | _ => exact hsame _ rfl rfl rfl
  | _ => exact hsame _ (congrArg RoleRunCostTracker.totals hcost) rfl rfl

/-- The account held at the latest check of each call. -/
def ChecksAccounted (s : Cycles ι) : Prop :=
  ∀ i check, s.checks i = some check → check.cost.totals.add check.lost = check.since

/-- Only a check of its own changes what a call found at its latest one. -/
theorem checks_of_ne {answer : Answer} {o : Op} {x : o.Ans} (ho : o ≠ .readCost)
    (h : (server host).serve i answer o s = some (x, t)) :
    t.checks = Function.update s.checks i ((s.checks i).map (BudgetCheck.after o)) := by
  have hsame : ∀ {o : Op}, o.work = none →
      s.checks = Function.update s.checks i ((s.checks i).map (BudgetCheck.after o)) := by
    intro o hwork
    rw [eq_comm, Function.update_eq_self_iff]
    cases s.checks i with
    | none => rfl
    | some check =>
      rw [Option.map_some, BudgetCheck.after, LatestCheck.after, hwork]
      rfl
  obtain ⟨rfl, rfl⟩ := Prod.mk.inj (Option.some.inj h)
  cases o with
  | readCost => exact absurd rfl ho
  | updateShared u => cases u <;> exact hsame rfl
  | acquireRunLease => exact hsame rfl
  | _ => rfl

theorem checks_of_readCost {answer : Answer} {x : Op.readCost.Ans}
    (h : (server host).serve i answer .readCost s = some (x, t)) :
    x = .ok s.shared.cost ∧
      t.checks = Function.update s.checks i (some ⟨⟨s.shared.cost, none⟩, s.since i, s.lost i⟩) := by
  obtain ⟨rfl, rfl⟩ := Prod.mk.inj (Option.some.inj h)
  exact ⟨rfl, rfl⟩

theorem checks_of_other {answer : Answer} {o : Op} {x : o.Ans} (hij : j ≠ i)
    (h : (server host).serve i answer o s = some (x, t)) : t.checks j = s.checks j := by
  by_cases ho : o = .readCost
  · subst ho
    rw [(checks_of_readCost h).2, Function.update_of_ne hij]
  · rw [checks_of_ne ho h, Function.update_of_ne hij]

theorem ChecksAccounted.serve {answer : Answer} {o : Op} {x : o.Ans} (hs : Accounted s)
    (hchecks : ChecksAccounted s) (h : (server host).serve i answer o s = some (x, t)) :
    ChecksAccounted t := by
  intro j check hcheck
  have hown : j = i → check.cost.totals.add check.lost = check.since := by
    rintro rfl
    by_cases ho : o = .readCost
    · subst ho
      rw [(checks_of_readCost h).2, Function.update_self] at hcheck
      obtain rfl := Option.some.inj hcheck
      exact hs j
    · rw [checks_of_ne ho h, Function.update_self] at hcheck
      obtain ⟨before, hbefore, rfl⟩ := Option.map_eq_some_iff.mp hcheck
      exact hchecks j before hbefore
  by_cases hji : j = i
  · exact hown hji
  · rw [checks_of_other hji h] at hcheck
    exact hchecks j check hcheck

/-- The latest check of a call. -/
def latestCheck (i : ι) (s : Cycles ι) : Option LatestCheck :=
  (s.checks i).map BudgetCheck.toLatestCheck

theorem latestCheck_own (i : ι) (o : Op) (s : Cycles ι) (x : o.Ans) (t : Cycles ι)
    (h : (server host).eff i o s x t) : o.checked (latestCheck i s) x (latestCheck i t) := by
  obtain ⟨answer, hserve⟩ := h
  by_cases ho : o = .readCost
  · subst ho
    obtain ⟨rfl, hchecks⟩ := checks_of_readCost hserve
    refine ⟨s.shared.cost, rfl, ?_⟩
    rw [latestCheck, hchecks, Function.update_self]
    rfl
  · rw [Op.checked_iff_of_ne ho, latestCheck, latestCheck, checks_of_ne ho hserve,
      Function.update_self, Option.map_map, Option.map_map]
    rfl

theorem latestCheck_others (i j : ι) (o : Op) (s : Cycles ι) (x : o.Ans) (t : Cycles ι) (hij : j ≠ i)
    (h : (server host).eff i o s x t) : latestCheck j t = latestCheck j s := by
  obtain ⟨answer, hserve⟩ := h
  rw [latestCheck, latestCheck, checks_of_other hij hserve]

theorem latestCheck_drifts (j : ι) (s t : Cycles ι) (h : (server host).drifts s t) :
    latestCheck j t = latestCheck j s := by
  obtain ⟨store, hdrift⟩ := h
  obtain rfl := Option.some.inj hdrift
  rfl

section Run

variable {rt : Runtime} {options : ι → Runtime.RunCycleOptions} {shared : Shared} {store : Store}
  {repo : Repo} {states : ι → ProjectState} {moves : List (Move ι Answer Store)}
  {q : Pool ι Op Op.Ans (Except RuntimeError RunCycleResult) (Cycles ι)}

/-- **Every run** keeps the account. -/
theorem accounted_of_run
    (run : (start rt options shared store repo states).run (server host) moves = some q) :
    Accounted q.state ∧ ChecksAccounted q.state := by
  have hstart : Accounted (start rt options shared store repo states).state :=
    fun i => Usage.add_none _
  have hnone : ChecksAccounted (start rt options shared store repo states).state := by
    rintro i check ⟨⟩
  refine Pool.run_keeps (I := fun s => Accounted s ∧ ChecksAccounted s) ⟨hstart, hnone⟩ ?_ ?_ run
  · rintro i o s x t ⟨hs, hchecks⟩ ⟨answer, hserve⟩
    exact ⟨hs.serve hserve, hchecks.serve hs hserve⟩
  · rintro s t hs ⟨store, hdrift⟩
    obtain rfl := Option.some.inj hdrift
    exact hs

/-- **Roles work after passed checks**: whenever a call has a role work, in any interleaving, the totals
that it found at its latest check were below the budgets, and made up its usage with what it had lost
until then; and no role of this call has worked on anything else since. -/
theorem roles_checked
    (run : (start rt options shared store repo states).run (server host) moves = some q) {i : ι}
    {o : Op} {k : o.Ans → Prog Op Op.Ans (Except RuntimeError RunCycleResult)} {work : RoleWork}
    (hask : q.threads i = .ask o k) (hwork : o.work = some work) :
    ∃ check, q.state.checks i = some check ∧ check.GoodFor work ∧
      rt.WithinBudgets check.cost.totals ∧ check.cost.totals.add check.lost = check.since := by
  have hstart : ∀ i, Prog.wp (checkRules rt)
      ((start rt options shared store repo states).threads i)
      (Act.outcome (fun _ _ => True) fun _ _ => True)
      (latestCheck i (start rt options shared store repo states).state) :=
    fun i => checked_runCycle (options i) none trivial
  have hcycle := Pool.wp_of_run hstart latestCheck_own latestCheck_others latestCheck_drifts run i
  rw [hask] at hcycle
  obtain ⟨latest, hlatest, hwithin, hgood⟩ := hcycle.1 work hwork
  obtain ⟨check, hcheck, rfl⟩ := Option.map_eq_some_iff.mp hlatest
  exact ⟨check, hcheck, hgood, hwithin, (accounted_of_run run).2 i check hcheck⟩

end Run

/-! ### Calls without the lease -/

/-- **Harmless** for the other calls: nothing that they work on changes, except that the cost tracker
may be reset. -/
structure Harmless (i : ι) (s t : Cycles ι) : Prop where
  store : t.store = s.store
  repo : t.repo = s.repo
  recorder : t.shared.recorder = s.shared.recorder
  states : ∀ j, j ≠ i → t.states j = s.states j
  cost : t.shared.cost = s.shared.cost ∨ t.shared.cost.totals = .none

/-- What a call guarantees: until it has the lease, its operations are harmless. -/
structure Guar (i : ι) (s t : Cycles ι) : Prop where
  leased : ∀ j, j ≠ i → t.leased j = s.leased j
  kept : s.leased i = true → t.leased i = true
  harmless : t.leased i = false → Harmless i s t

/-- The outcome of a call that never got the lease. -/
def Outcome (i : ι) (result : Except RuntimeError RunCycleResult) (s : Cycles ι) : Prop :=
  s.leased i = false → ∀ r, result = .ok r → r.status = .idle ∧
    r.stopReason = some "run_lock_unavailable"

/-- What a call relies on: whether it has the lease is its own affair. -/
def Rely (i : ι) (s t : Cycles ι) : Prop := t.leased i = s.leased i

theorem leased_acquire (s : Cycles ι) (i : ι) (x : Op.acquireRunLease.Ans) (w : World) :
    ((s.note i .acquireRunLease x).put i w).leased i =
      (s.leased i || (Except.toOption x : Option Bool).getD false) :=
  Function.update_self ..

/-- Only an acquisition can change which calls have the lease, and it takes it from none. -/
theorem leased_of_eff {o : Op} {x : o.Ans} (h : (server host).eff i o s x t) :
    (∀ j, j ≠ i → t.leased j = s.leased j) ∧ (s.leased i = true → t.leased i = true) := by
  obtain ⟨answer, hserve⟩ := h
  obtain ⟨rfl, rfl⟩ := Prod.mk.inj (Option.some.inj hserve)
  cases o with
  | acquireRunLease =>
    refine ⟨fun j hij => Function.update_of_ne hij _ _, fun hleased => ?_⟩
    have hor := leased_acquire s i (Op.acquireRunLease.handle host answer (s.world i)).1
      (Op.acquireRunLease.handle host answer (s.world i)).2
    rw [hleased, Bool.true_or] at hor
    exact hor
  | updateShared u => cases u <;> exact ⟨fun _ _ => rfl, id⟩
  | _ => exact ⟨fun _ _ => rfl, id⟩

theorem leased_of_acquire (h : (server host).eff i .acquireRunLease s (.ok true) t) :
    t.leased i = true := by
  obtain ⟨answer, hserve⟩ := h
  dsimp only [server] at hserve
  generalize Op.acquireRunLease.handle host answer (s.world i) = r at hserve
  obtain ⟨x, w⟩ := r
  obtain ⟨rfl, rfl⟩ := Prod.mk.inj (Option.some.inj hserve)
  exact (leased_acquire s i (.ok true) w).trans (Bool.or_true _)

/-- What a call does before it has the lease. -/
def IsFirst : Op → Prop
  | .updateShared .resetRun | .randomUUID | .load | .acquireRunLease => True
  | _ => False

theorem guar_of_first {o : Op} (ho : IsFirst o) {x : o.Ans} (h : (server host).eff i o s x t) :
    Guar i s t := by
  obtain ⟨hothers, hkept⟩ := leased_of_eff h
  refine ⟨hothers, hkept, fun _ => ?_⟩
  obtain ⟨answer, hserve⟩ := h
  obtain ⟨rfl, rfl⟩ := Prod.mk.inj (Option.some.inj hserve)
  have hstates : ∀ (state : ProjectState) j, j ≠ i →
      Function.update s.states i state j = s.states j :=
    fun state j hij => Function.update_of_ne hij _ _
  cases o with
  | updateShared u =>
    cases u with
    | resetRun => exact ⟨rfl, rfl, rfl, hstates _, Or.inr rfl⟩
    | _ => exact absurd ho id
  | randomUUID => exact ⟨rfl, rfl, rfl, hstates _, Or.inl rfl⟩
  | load | acquireRunLease =>
    simp only [Answer.fallible]
    split <;> exact ⟨rfl, rfl, rfl, hstates _, Or.inl rfl⟩
  | _ => exact absurd ho id

/-- The rule for an operation before the lease. -/
theorem safe_first_bind {α : Type} {o : Op} (ho : IsFirst o) {f : o.Result → Action α}
    {Q : Except RuntimeError α → Cycles ι → Prop}
    (hok : ∀ s x t, (server host).eff i o s (.ok x) t →
      Act.Safe ((server host).eff i) (Rely i) (Guar i) (f x) Q t)
    (herror : ∀ e t, Q (.error e) t) :
    Act.Safe ((server host).eff i) (Rely i) (Guar i) (request o >>= f) Q s :=
  Act.safe_ask_bind (P := fun _ => True) trivial (fun _ _ _ _ => trivial)
    (fun t x u _ he => ⟨guar_of_first ho he, hok t x u he⟩)
    fun _ e u _ he => ⟨guar_of_first ho he, herror e u⟩

/-- **A call is safe**: until it has the lease it is harmless, and if it never gets the lease it
returns that the lock is unavailable, or fails. -/
theorem safe_runCycle (rt : Runtime) (options : Runtime.RunCycleOptions) (s : Cycles ι) :
    Act.Safe ((server host).eff i) (Rely i) (Guar i) (rt.runCycle options) (Outcome i) s := by
  have herror : ∀ (e : RuntimeError) (t : Cycles ι), Outcome i (.error e) t := by
    intro e t _ r hr
    cases hr
  unfold Runtime.runCycle
  refine safe_first_bind (by exact trivial) (fun _ _ _ _ => ?_) herror
  refine safe_first_bind (by exact trivial) (fun _ runId _ _ => ?_) herror
  refine safe_first_bind (by exact trivial) (fun _ _ _ _ => ?_) herror
  refine safe_first_bind (by exact trivial) (fun s (acquired : Bool) t he => ?_) herror
  by_cases hacquired : acquired = true
  · -- with the lease nothing is asked of the call
    subst hacquired
    have hleased := leased_of_acquire he
    refine Act.Safe.mono (Prog.safe_of_invariant (I := fun s : Cycles ι => s.leased i = true) hleased
      (fun s t hs hrely => hrely.trans hs) fun o s x t hs he => ?_) ?_
    · obtain ⟨hothers, hkept⟩ := leased_of_eff he
      refine ⟨⟨hothers, hkept, fun hfalse => ?_⟩, hkept hs⟩
      rw [hkept hs] at hfalse
      cases hfalse
    · intro r t ht hfalse
      rw [ht] at hfalse
      cases hfalse
  · obtain rfl : acquired = false := eq_false_of_ne_true hacquired
    intro _ r hr
    cases hr
    exact ⟨rfl, rfl⟩

omit [DecidableEq ι] in
/-- What every call keeps of its outcome while the others work. -/
theorem Outcome.stable {result : Except RuntimeError RunCycleResult} (h : Outcome i result s)
    (hrely : Rely i s t) : Outcome i result t :=
  fun hfalse => h (hrely.symm.trans hfalse)

section Run

variable {rt : Runtime} {options : ι → Runtime.RunCycleOptions} {shared : Shared} {store : Store}
  {repo : Repo} {states : ι → ProjectState} {moves : List (Move ι Answer Store)}
  {q : Pool ι Op Op.Ans (Except RuntimeError RunCycleResult) (Cycles ι)}

/-- Along every run the calls are safe. -/
theorem safe_of_run
    (run : (start rt options shared store repo states).run (server host) moves = some q) :
    q.SafeTo (server host) Rely Guar Outcome := by
  have hstart : (start rt options shared store repo states).SafeTo (server host) Rely Guar
      Outcome := fun i => safe_runCycle rt (options i) _
  refine Pool.safeTo_run ?_ ?_ ?_ hstart run
  · exact fun i j hij s t hguar => hguar.leased j (Ne.symm hij)
  · rintro j s t ⟨store, hdrift⟩
    obtain rfl := Option.some.inj hdrift
    exact rfl
  · exact fun j result s t hout hrely => hout.stable hrely

end Run

end Overlaps

end AiOrchestrator
