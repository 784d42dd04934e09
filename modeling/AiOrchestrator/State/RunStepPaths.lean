import AiOrchestrator.State.Memory
import Mathlib.Data.List.Chain

/-!
# Run-step histories

The statuses that a store has accepted for one run, step and attempt, in the order of acceptance,
and the paths of `RUN_STEP_TRANSITION_TABLE`
(`packages/core/src/run-step-transition-table.ts`, `transition-guards.ts`).

Both stores check a step against the entry of its key that is newest by its time stamp. The check
asks whether the history goes on as a path exactly where that entry is also the one accepted last
(`LastIsNewest`). `InMemoryStateStore.Clocked` says this of a whole list of calls.
-/

namespace AiOrchestrator

/-- The run, the step and the attempt of an entry. -/
structure RunStepKey where
  runId : String
  stepId : String
  attempt : Nat
deriving DecidableEq

def RunStepLogEntry.key (step : RunStepLogEntry) : RunStepKey :=
  ⟨step.runId, step.stepId, step.attempt⟩

/-- The entries of a key, in the order of their acceptance. -/
def entriesOf (key : RunStepKey) (log : List RunStepLogEntry) : List RunStepLogEntry :=
  log.filter fun entry => entry.key = key

/-- **The history** of a key. -/
def history (key : RunStepKey) (log : List RunStepLogEntry) : List RunStepStatus :=
  (entriesOf key log).map RunStepLogEntry.status

/-- **Paths** of `RUN_STEP_TRANSITION_TABLE`. -/
def IsPath (statuses : List RunStepStatus) : Prop :=
  statuses.IsChain fun previous next => next ∈ getAllowedRunStepTransitions previous

/-- A path goes on with a status. -/
def Continues (statuses : List RunStepStatus) (next : RunStepStatus) : Prop :=
  IsPath (statuses ++ [next])

instance (statuses : List RunStepStatus) : Decidable (IsPath statuses) :=
  inferInstanceAs (Decidable (List.IsChain _ _))

instance (statuses : List RunStepStatus) (next : RunStepStatus) :
    Decidable (Continues statuses next) :=
  inferInstanceAs (Decidable (IsPath _))

/-- All histories of a log are paths. -/
def Paths (log : List RunStepLogEntry) : Prop := ∀ key, IsPath (history key log)

/-- The last entry is newer than all before it. -/
def LastIsNewest {α : Type} (newer : α → α → Prop) (entries : List α) : Prop :=
  ∀ earlier last, entries = earlier ++ [last] → ∀ entry ∈ earlier, newer last entry

theorem lastIsNewest_nil {α : Type} {newer : α → α → Prop} : LastIsNewest newer [] := by
  intro earlier last h
  exact absurd h.symm (List.append_ne_nil_of_right_ne_nil earlier (List.cons_ne_nil last []))

theorem lastIsNewest_iff {α : Type} {newer : α → α → Prop} {entries : List α} :
    LastIsNewest newer entries ↔
      ∀ last ∈ entries.getLast?, ∀ entry ∈ entries.dropLast, newer last entry := by
  rcases List.eq_nil_or_concat entries with rfl | ⟨earlier, last, rfl⟩
  · exact iff_of_true lastIsNewest_nil nofun
  · rw [List.concat_eq_append, List.getLast?_concat, List.dropLast_concat]
    constructor
    · intro h last' hlast
      obtain rfl := Option.some.inj hlast
      exact h earlier last rfl
    · intro h earlier' last' heq
      obtain ⟨rfl, hlast⟩ := List.append_inj' heq rfl
      rw [List.singleton_inj] at hlast
      exact h last' (congrArg some hlast)

instance {α : Type} {newer : α → α → Prop} [DecidableRel newer] {entries : List α} :
    Decidable (LastIsNewest newer entries) :=
  decidable_of_iff _ lastIsNewest_iff.symm

@[simp] theorem entriesOf_append (key : RunStepKey) (log log' : List RunStepLogEntry) :
    entriesOf key (log ++ log') = entriesOf key log ++ entriesOf key log' :=
  List.filter_append _ _

theorem entriesOf_of_key {step : RunStepLogEntry} : entriesOf step.key [step] = [step] := by
  rw [entriesOf, List.filter_cons_of_pos (by simp), List.filter_nil]

theorem entriesOf_of_ne {key : RunStepKey} {step : RunStepLogEntry} (h : step.key ≠ key) :
    entriesOf key [step] = [] := by
  rw [entriesOf, List.filter_cons_of_neg (by simpa using h), List.filter_nil]

theorem history_concat_self (log : List RunStepLogEntry) (step : RunStepLogEntry) :
    history step.key (log ++ [step]) = history step.key log ++ [step.status] := by
  rw [history, entriesOf_append, entriesOf_of_key, List.map_append]
  rfl

theorem history_concat_of_ne {log : List RunStepLogEntry} {key : RunStepKey}
    {step : RunStepLogEntry} (h : step.key ≠ key) :
    history key (log ++ [step]) = history key log := by
  rw [history, entriesOf_append, entriesOf_of_ne h, List.append_nil]
  rfl

/-- A step that continues the history of its key keeps all histories paths. -/
theorem Paths.concat {log : List RunStepLogEntry} {step : RunStepLogEntry} (h : Paths log)
    (hstep : Continues (history step.key log) step.status) : Paths (log ++ [step]) := by
  intro key
  by_cases hkey : step.key = key
  · subst hkey
    rw [history_concat_self]
    exact hstep
  · rw [history_concat_of_ne hkey]
    exact h key

/-- **The transition check** against the last status decides whether a path goes on. -/
theorem transitionAllowed_iff_continues {statuses : List RunStepStatus} {next : RunStepStatus}
    (h : IsPath statuses) :
    assertRunStepTransitionAllowed statuses.getLast? next = .ok () ↔ Continues statuses next := by
  rcases List.eq_nil_or_concat statuses with rfl | ⟨earlier, previous, rfl⟩
  · exact iff_of_true rfl (List.isChain_singleton next)
  · rw [List.concat_eq_append] at h ⊢
    rw [List.getLast?_concat, assertRunStepTransitionAllowed, Continues, IsPath,
      List.append_assoc, List.singleton_append, List.isChain_append_cons_cons]
    have hend : (List.IsChain (fun previous next => next ∈ getAllowedRunStepTransitions previous)
        [next]) := List.isChain_singleton next
    by_cases hnext : next ∈ getAllowedRunStepTransitions previous
    · rw [if_pos hnext]
      exact iff_of_true rfl ⟨h, hnext, hend⟩
    · rw [if_neg hnext]
      exact iff_of_false (by simp) fun hpath => hnext hpath.2.1

/-- Sorting puts an entry first that precedes all entries before it, and none of them it. -/
theorem head?_insertionSort_concat {α : Type} {r : α → α → Prop} [DecidableRel r]
    {earlier : List α} {last : α} (h : ∀ entry ∈ earlier, ¬ r entry last) :
    ((earlier ++ [last]).insertionSort r).head? = some last := by
  induction earlier with
  | nil => rfl
  | cons entry earlier ih =>
    have hlast := ih fun other hother => h other (List.mem_cons_of_mem entry hother)
    rw [List.cons_append, List.insertionSort_cons]
    cases hsorted : (earlier ++ [last]).insertionSort r with
    | nil =>
      rw [hsorted] at hlast
      cases hlast
    | cons first rest =>
      rw [hsorted] at hlast
      obtain rfl : first = last := Option.some.inj hlast
      rw [List.orderedInsert, if_neg (h entry List.mem_cons_self)]
      rfl

namespace InMemoryStateStore

variable {host : Host}

/-- The comparison by which the in-memory store sorts. -/
def Newer (host : Host) (left right : RunStepLogEntry) : Prop :=
  host.localeCompare left.createdAt right.createdAt = .gt

instance (host : Host) : DecidableRel (Newer host) := fun _ _ =>
  inferInstanceAs (Decidable (_ = _))

/-- Where the last entry is the newest, the check is made against it. -/
theorem previousRunStep_of_newest {current : ProjectState} {step : RunStepLogEntry}
    (h : LastIsNewest (Newer host) (entriesOf step.key current.execution.runStepLog)) :
    previousRunStep host current step =
      (entriesOf step.key current.execution.runStepLog).getLast? := by
  have hmatching : (current.execution.runStepLog.filter fun entry =>
      entry.runId = step.runId && entry.stepId = step.stepId && entry.attempt = step.attempt) =
      entriesOf step.key current.execution.runStepLog := by
    refine List.filter_congr fun entry _ => ?_
    simp only [RunStepLogEntry.key, RunStepKey.mk.injEq, Bool.decide_and, Bool.and_assoc]
  rw [previousRunStep, hmatching]
  rcases List.eq_nil_or_concat (entriesOf step.key current.execution.runStepLog) with
    hnil | ⟨earlier, last, hconcat⟩
  · rw [hnil]
    rfl
  · rw [List.concat_eq_append] at hconcat
    rw [hconcat, List.getLast?_concat]
    refine head?_insertionSort_concat fun entry hentry => ?_
    exact not_not.mpr (h earlier last hconcat entry hentry)

/-- A step of this tenant and project with which the snapshot is valid. -/
def Recordable (current : ProjectState) (step : RunStepLogEntry) : Prop :=
  step.tenantId = current.orgId ∧ step.projectId = current.projectId ∧
    (withRunStep current step).Valid

/-- **One call**: a recordable step is accepted exactly where it continues the history. -/
theorem recordRunStep_iff_continues {current : ProjectState} {step : RunStepLogEntry}
    (hpaths : Paths current.execution.runStepLog)
    (hnewest : LastIsNewest (Newer host) (entriesOf step.key current.execution.runStepLog)) :
    (∃ next, recordRunStep host current step = .ok next) ↔
      Recordable current step ∧
        Continues (history step.key current.execution.runStepLog) step.status := by
  have hcheck : assertRunStepTransitionAllowed
        (history step.key current.execution.runStepLog).getLast? step.status = .ok () ↔
      Continues (history step.key current.execution.runStepLog) step.status :=
    transitionAllowed_iff_continues (hpaths step.key)
  rw [history, List.getLast?_map, ← previousRunStep_of_newest hnewest] at hcheck
  constructor
  · rintro ⟨next, hnext⟩
    obtain ⟨horg, hproject, hallowed, hvalid, -⟩ := recordRunStep_ok_iff.mp hnext
    exact ⟨⟨horg, hproject, hvalid⟩, hcheck.mp hallowed⟩
  · rintro ⟨⟨horg, hproject, hvalid⟩, hcontinues⟩
    exact ⟨_, recordRunStep_ok_iff.mpr ⟨horg, hproject, hcheck.mpr hcontinues, hvalid, rfl⟩⟩

/-- The store after the first calls. -/
def afterRunSteps (host : Host) (store : InMemoryStateStore) (steps : List RunStepLogEntry) :
    InMemoryStateStore :=
  (PromiseQueue.runAll (exec host) (steps.map .recordRunStep) store).2

/-- **The condition on a list of calls**: each is made where the entry of its key that was
accepted last is the newest. -/
def Clocked (host : Host) (store : InMemoryStateStore) (steps : List RunStepLogEntry) : Prop :=
  ∀ before step after, steps = before ++ step :: after →
    LastIsNewest (Newer host)
      (entriesOf step.key (afterRunSteps host store before).state.execution.runStepLog)

theorem clocked_iff {host : Host} {store : InMemoryStateStore} {steps : List RunStepLogEntry} :
    Clocked host store steps ↔ ∀ n < steps.length, ∀ step ∈ steps[n]?,
      LastIsNewest (Newer host) (entriesOf step.key
        (afterRunSteps host store (steps.take n)).state.execution.runStepLog) := by
  constructor
  · intro h n hn step hstep
    have hget : steps[n] = step := Option.some.inj ((List.getElem?_eq_getElem hn).symm.trans hstep)
    have hsplit : steps = steps.take n ++ step :: steps.drop (n + 1) := by
      rw [← hget, List.getElem_cons_drop, List.take_append_drop]
    exact h _ _ _ hsplit
  · intro h before step after hsteps
    subst hsteps
    have hlt : before.length < (before ++ step :: after).length := by simp
    have hnewest := h before.length hlt step (by simp)
    rwa [List.take_left] at hnewest

instance (host : Host) (store : InMemoryStateStore) (steps : List RunStepLogEntry) :
    Decidable (Clocked host store steps) :=
  decidable_of_iff _ clocked_iff.symm

variable {store : InMemoryStateStore} {steps : List RunStepLogEntry} {step : RunStepLogEntry}

theorem afterRunSteps_concat (host : Host) (store : InMemoryStateStore)
    (steps : List RunStepLogEntry) (step : RunStepLogEntry) :
    afterRunSteps host store (steps ++ [step]) =
      (exec host (.recordRunStep step) (afterRunSteps host store steps)).2 := by
  rw [afterRunSteps, List.map_append, List.map_singleton, PromiseQueue.runAll_concat]
  rfl

theorem Clocked.left {more : List RunStepLogEntry} (h : Clocked host store (steps ++ more)) :
    Clocked host store steps := by
  intro before step after hsplit
  refine h before step (after ++ more) ?_
  rw [hsplit, List.append_assoc, List.cons_append]

/-- **The step**: a call keeps all histories paths, where the last entry of its key is the newest. -/
theorem paths_exec (hpaths : Paths store.state.execution.runStepLog)
    (hnewest : LastIsNewest (Newer host) (entriesOf step.key store.state.execution.runStepLog)) :
    Paths (exec host (.recordRunStep step) store).2.state.execution.runStepLog := by
  have hiff := recordRunStep_iff_continues hpaths hnewest
  rcases exec_recordRunStep host step store with ⟨next, hnext, hexec⟩ | ⟨e, -, hexec⟩
  · have hcontinues := (hiff.mp ⟨next, hnext⟩).2
    rw [hexec, (recordRunStep_ok hnext).1]
    exact hpaths.concat hcontinues
  · rw [hexec]
    exact hpaths

/-- **The run**: all histories are paths after every list of calls that meets the condition. -/
theorem Clocked.paths (h : Clocked host store steps)
    (hpaths : Paths store.state.execution.runStepLog) :
    Paths (afterRunSteps host store steps).state.execution.runStepLog := by
  induction steps using List.reverseRecOn with
  | nil => exact hpaths
  | append_singleton steps step ih =>
    rw [afterRunSteps_concat]
    exact paths_exec (ih h.left) (h steps step [] rfl)

/-- The outcome of each call: accepted where it continues the history. -/
theorem Clocked.outcome (h : Clocked host store steps)
    (hpaths : Paths store.state.execution.runStepLog) {i : Nat} (hi : steps[i]? = some step) :
    let before := afterRunSteps host store (steps.take i)
    ∃ result, (PromiseQueue.runAll (exec host) (steps.map .recordRunStep) store).1[i]? =
        some result ∧
      ((∃ reply, result = .ok reply) ↔ Recordable before.state step ∧
        Continues (history step.key before.state.execution.runStepLog) step.status) := by
  intro before
  have hcall : (steps.map MutationCall.recordRunStep)[i]? = some (.recordRunStep step) := by
    rw [List.getElem?_map, hi, Option.map_some]
  refine ⟨_, PromiseQueue.runAll_getElem? _ store hcall, ?_⟩
  rw [← List.map_take]
  obtain ⟨hlt, hget⟩ := List.getElem?_eq_some_iff.mp hi
  have hsplit : steps = steps.take i ++ step :: steps.drop (i + 1) := by
    rw [← hget, List.getElem_cons_drop, List.take_append_drop]
  have htake : Clocked host store (steps.take i) := by
    rw [hsplit] at h
    exact h.left
  rw [← recordRunStep_iff_continues (htake.paths hpaths) (h _ step _ hsplit)]
  change (∃ reply, (exec host (.recordRunStep step) before).1 = .ok reply) ↔ _
  rcases exec_recordRunStep host step before with ⟨next, hnext, hexec⟩ | ⟨e, herror, hexec⟩
  · rw [hexec]
    exact iff_of_true ⟨_, rfl⟩ ⟨next, hnext⟩
  · rw [hexec]
    refine iff_of_false ?_ ?_
    · rintro ⟨reply, hreply⟩
      cases hreply
    · rintro ⟨next, hnext⟩
      rw [herror] at hnext
      cases hnext

/-- Run steps are never refused when they are issued. -/
theorem filter_admits_recordRunStep (steps : List RunStepLogEntry) :
    (steps.map MutationCall.recordRunStep).filter admits = steps.map .recordRunStep := by
  rw [List.filter_eq_self]
  intro c hc
  obtain ⟨step, -, rfl⟩ := List.mem_map.mp hc
  rfl

/-- At any time a store in use has executed the first of the calls made on it. -/
theorem Session.Queued.afterRunSteps {session : Session} (h : Session.Queued host store session)
    (hcalls : session.calls = steps.map .recordRunStep) :
    ∃ m, session.memory = afterRunSteps host store (steps.take m) := by
  obtain ⟨m, hm⟩ := h.memory_eq
  refine ⟨m, ?_⟩
  rw [hm, hcalls, filter_admits_recordRunStep, InMemoryStateStore.afterRunSteps, List.map_take]

end InMemoryStateStore

end AiOrchestrator
