import AiOrchestrator.Execution.Reservations
import AiOrchestrator.Results.Cycles

/-!
# Side effects of a cycle

What holds of every cycle about its commit, its push and its pull request. The reservations of a
cycle are in the registry of its copy, which reaches the store with the last save only, when all
executors have been called: a cycle writes its reservations ahead exactly when it calls none of
them (`writtenAhead_iff`).
-/

namespace AiOrchestrator

theorem Op.leasedEffect_handle (host : Host) (answer : Answer) (o : Op) (w : World) :
    Op.leasedEffect host o w (Op.handle host answer o w).1 (Op.handle host answer o w).2 :=
  ⟨answer, w.store, rfl, rfl⟩

namespace Runtime

/-- An executor is called behind a reservation that the stored state does not have. -/
theorem executor_due (rt : Runtime) (options : RunCycleOptions) {w : World}
    {q : Prog Op Op.Ans (Except RuntimeError RunCycleResult)} {c : Observed}
    (hrun : Prog.Path (Prog.recorded (Op.leasedEffect rt.host))
      ((rt.runCycle options).run, (w, [])) (q, c))
    {later earlier : List RunEvent} {e : RunEvent} (hrecord : c.2 = later ++ e :: earlier)
    (he : e.op.IsExecutor) : Due e.before.store.current.registry earlier := by
  have hspec := @runCycle_due w.store.current.registry rt options (w, []) rfl
  obtain ⟨events, hevents, hall⟩ := Prog.wp_events rfl hspec hrun
  rw [List.append_nil] at hevents
  have hallowed := hall later e earlier (hevents.symm.trans hrecord)
  rw [List.append_nil] at hallowed
  exact hallowed he

/-- An executor behind a reservation that is not stored is not written ahead. -/
theorem not_writtenAhead {record later earlier : List RunEvent} {e : RunEvent}
    (hrecord : record = later ++ e :: earlier) (he : e.op.IsExecutor)
    (hdue : Due e.before.store.current.registry earlier) : ¬ WrittenAhead record := by
  intro h
  have hsecured := h later e earlier hrecord
  obtain ⟨r, hr, hin⟩ := hsecured [] e earlier rfl he
  obtain ⟨r', hr', hnot⟩ := hdue
  rw [hr] at hr'
  cases hr'
  exact hnot hin

/-- **Written ahead**: in every cycle, however far it gets, the reservations of the executors that
were called so far are in the stored state at every point exactly when no executor is called. -/
theorem writtenAhead_iff (rt : Runtime) (options : RunCycleOptions) {w : World}
    {q : Prog Op Op.Ans (Except RuntimeError RunCycleResult)} {c : Observed}
    (hrun : Prog.Path (Prog.recorded (Op.leasedEffect rt.host))
      ((rt.runCycle options).run, (w, [])) (q, c)) :
    WrittenAhead c.2 ↔ ∀ e ∈ c.2, ¬ e.op.IsExecutor := by
  constructor
  · intro hahead e hmem hexecutor
    obtain ⟨later, earlier, hrecord⟩ := List.append_of_mem hmem
    have hdue := executor_due rt options hrun hrecord hexecutor
    exact not_writtenAhead hrecord hexecutor hdue hahead
  · intro hnone later e earlier hrecord later' e' earlier' hsplit hexecutor
    have hmem : e' ∈ e :: earlier := by
      rw [hsplit]
      exact List.mem_append_right later' List.mem_cons_self
    have hrecorded : e' ∈ c.2 := by
      rw [hrecord]
      exact List.mem_append_right later hmem
    exact absurd hexecutor (hnone e' hrecorded)

/-- Answers under which a task is completed, committed, pushed and offered as a pull request. -/
def publishAnswer (o : Op) (w : World) : Answer :=
  { sampleAnswer "?? parser.ts" o w with
    flag :=
      match o with
      | .acquireRunLease => true
      | _ => false
    text :=
      match o with
      | .git (.statusPorcelain _) | .git (.statusShort _) => "?? parser.ts"
      | .git (.showCurrentBranch _) => "main"
      | _ => "0" }

/-- A handler with these answers. -/
def publishHandle (o : Op) (w : World) : o.Ans × World :=
  Op.handle sampleHost (publishAnswer o w) o w

/-- A cycle that publishes its task, with its record. -/
def publishedCycle : Except RuntimeError RunCycleResult × Observed :=
  Prog.exec (Prog.recording publishHandle) (sampleRuntime.runCycle {}).run
    (sampleWorld ProjectState.oneTask, [])

theorem publishedCycle_path :
    Prog.Path (Prog.recorded (Op.leasedEffect sampleRuntime.host))
      ((sampleRuntime.runCycle {}).run, (sampleWorld ProjectState.oneTask, []))
      (.ret publishedCycle.1, publishedCycle.2) :=
  Prog.path_recording (fun o w => Op.leasedEffect_handle sampleHost (publishAnswer o w) o w) _ _

/-- The operation of an event that makes a pull request. -/
def pullRequest? : RunEvent → Option World
  | ⟨.git (.prCreate _ _ _ _), _, w⟩ => some w
  | _ => none

theorem pullRequest?_eq_some {e : RunEvent} {w : World} (h : pullRequest? e = some w) :
    e.op.IsExecutor ∧ e.before = w := by
  unfold pullRequest? at h
  split at h
  · cases h
    exact ⟨trivial, rfl⟩
  · cases h

/-- The stored entry for the last reservation before a pull request, as an event of the record. -/
def storedAtPullRequest (record : List RunEvent) (i : Nat) : Option (Option DedupRegistryRecord) := do
  let e ← record[i]?
  let w ← pullRequest? e
  let r ← lastReservation (record.drop (i + 1))
  pure (w.store.current.registry.get? r.key)

theorem storedAtPullRequest_eq_some {record : List RunEvent} {i : Nat}
    {entry : Option DedupRegistryRecord} (h : storedAtPullRequest record i = some entry) :
    ∃ e r, record[i]? = some e ∧ e.op.IsExecutor ∧
      lastReservation (record.drop (i + 1)) = some r ∧
        e.before.store.current.registry.get? r.key = entry := by
  obtain ⟨e, he, h⟩ := Option.bind_eq_some_iff.mp h
  obtain ⟨w, hw, h⟩ := Option.bind_eq_some_iff.mp h
  obtain ⟨r, hr, h⟩ := Option.bind_eq_some_iff.mp h
  obtain ⟨hexecutor, rfl⟩ := pullRequest?_eq_some hw
  exact ⟨e, r, he, hexecutor, hr, Option.some.inj h⟩

/-- What the record of that cycle shows of its pull request. -/
theorem publishedCycle_pullRequest :
    ∃ e r, publishedCycle.2.2[30]? = some e ∧ e.op.IsExecutor ∧
      lastReservation (publishedCycle.2.2.drop (30 + 1)) = some r ∧
        e.before.store.current.registry.get? r.key = none :=
  storedAtPullRequest_eq_some (by decide +kernel)

/-- The cycle that publishes its task calls executors, and does not write ahead. -/
theorem writtenAhead_iff_published : ¬ WrittenAhead publishedCycle.2.2 := by
  obtain ⟨e, r, he, hexecutor, -, -⟩ := publishedCycle_pullRequest
  intro hahead
  have hnone := (writtenAhead_iff sampleRuntime {} publishedCycle_path).mp hahead
  exact hnone e (List.mem_of_getElem? he) hexecutor

/-- **A pull request whose reservation is not stored**: when it is made, the stored state has no
entry for its key. -/
theorem pullRequest_not_ahead :
    (∃ e r, publishedCycle.2.2[30]? = some e ∧ e.op.IsExecutor ∧
      lastReservation (publishedCycle.2.2.drop (30 + 1)) = some r ∧
        e.before.store.current.registry.get? r.key = none) ∧
      ¬ WrittenAhead publishedCycle.2.2 := by
  refine ⟨publishedCycle_pullRequest, ?_⟩
  obtain ⟨e, r, he, hexecutor, hr, hnone⟩ := publishedCycle_pullRequest
  refine not_writtenAhead (split_of_getElem? he) hexecutor ⟨r, hr, fun hin => ?_⟩
  obtain ⟨entry, hentry⟩ := hin.entry
  rw [hnone] at hentry
  cases hentry

end Runtime

end AiOrchestrator
