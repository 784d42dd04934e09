import AiOrchestrator.Execution.Fencing
import AiOrchestrator.Results.Backlog
import AiOrchestrator.State.Memory
import AiOrchestrator.State.Postgres

/-!
# The stores

What the state stores guarantee, whatever calls are made on them and however they overlap.
-/

namespace AiOrchestrator

namespace InMemoryStateStore

open PromiseQueue

/-- **A call on its own**: when it succeeds, what it does to the revision, and that a failure
leaves everything as it was. -/
structure Atomic (host : Host) (c : MutationCall) (before : InMemoryStateStore) : Prop where
  succeeds_iff : c.IsSnapshot → ((∃ reply, (exec host c before).1 = .ok reply) ↔ c.Succeeds before)
  /-- Only `save` and `saveWithEvents` come with a state, and so with a revision, of their own. -/
  recorded : ∀ state, c.argument before = some (.clone state) →
    state.revision = before.state.revision
  revision : ∀ reply, (exec host c before).1 = .ok reply →
    reply.revision = (exec host c before).2.state.revision ∧
      (exec host c before).2.state.revision =
        before.state.revision + if c.IsSnapshot then 1 else 0
  runStep : ∀ step, c = .recordRunStep step → ((∃ reply, (exec host c before).1 = .ok reply) ↔
    ∃ next, recordRunStep host before.state step = .ok next)
  unchanged : ∀ e, (exec host c before).1 = .error e → (exec host c before).2 = before

theorem atomic_of_snapshot (host : Host) {c : MutationCall} (before : InMemoryStateStore)
    (hevents : EventArgument.Cloneable c.events) (hc : c.IsSnapshot) : Atomic host c before where
  succeeds_iff _ := by
    rcases exec_snapshot host hc before with
      ⟨argument, hargument, haccepts, ⟨-, reply, -, hexec⟩ | ⟨hnot, -⟩⟩ | ⟨hnot, e, hexec⟩
    · rw [hexec]
      exact ⟨fun _ => ⟨argument, hargument, haccepts⟩, fun _ => ⟨reply, rfl⟩⟩
    · exact absurd hevents hnot
    · rw [hexec]
      constructor
      · rintro ⟨reply, h⟩
        cases h
      · exact fun h => absurd h hnot
  recorded _ := revision_of_clone
  revision reply hreply := by
    rcases exec_snapshot host hc before with
      ⟨argument, -, -, ⟨-, reply', hrevision, hexec⟩ | ⟨hnot, -⟩⟩ | ⟨-, e, hexec⟩
    · rw [hexec] at hreply ⊢
      obtain rfl := Except.ok.inj hreply
      rw [if_pos hc]
      exact ⟨hrevision, rfl⟩
    · exact absurd hevents hnot
    · rw [hexec] at hreply
      cases hreply
  runStep step hstep := by
    subst hstep
    cases hc
  unchanged e herror := exec_error hevents (Prod.ext herror rfl)

theorem atomic_recordRunStep (host : Host) (step : RunStepLogEntry)
    (before : InMemoryStateStore) : Atomic host (.recordRunStep step) before where
  succeeds_iff h := by cases h
  recorded _ := revision_of_clone
  revision reply hreply := by
    rcases exec_recordRunStep host step before with ⟨next, hnext, hexec⟩ | ⟨e, -, hexec⟩
    · have hrevision : next.revision = before.state.revision := by
        rw [(recordRunStep_ok hnext).1]
        rfl
      rw [hexec] at hreply ⊢
      obtain rfl := Except.ok.inj hreply
      rw [if_neg (id : ¬ (MutationCall.recordRunStep step).IsSnapshot)]
      exact ⟨hrevision.symm, hrevision⟩
    · rw [hexec] at hreply
      cases hreply
  runStep step' hstep := by
    cases hstep
    rcases exec_recordRunStep host step before with ⟨next, hnext, hexec⟩ | ⟨e, herror, hexec⟩
    · rw [hexec, hnext]
      exact ⟨fun _ => ⟨next, rfl⟩, fun _ => ⟨_, rfl⟩⟩
    · rw [hexec, herror]
      constructor <;> rintro ⟨_, h⟩ <;> cases h
  unchanged e herror := 
    exec_error (c := .recordRunStep step) EventArgument.cloneable_nil (Prod.ext herror rfl)

/-- A platform for examples. -/
def sampleHost : Host where
  sha256Hex := id
  localeCompare _ _ := .eq
  stringify _ := ""
  tokenCost _ _ := 0

/-- A store at revision one, whose caller still holds revision zero. -/
def sampleStore : InMemoryStateStore where
  events := []
  state := { ProjectState.sampleState [] with revision := 1 }
  objects _ := ProjectState.sampleState []

/-- A decision to be recorded. -/
def sampleDecision : DecisionLogItem where
  id := "D-1"
  title := "Use a grammar"
  decision := "Write it down"
  rationale := "Inputs are read"
  affectedAreas := []
  createdAt := "2024-01-01T00:00:00.000Z"

/-- A step of a run to be logged. -/
def sampleRunStep : RunStepLogEntry where
  id := "S-1"
  tenantId := (ProjectState.sampleState []).orgId
  projectId := (ProjectState.sampleState []).projectId
  runId := "R-1"
  stepId := "step-1"
  attempt := 0
  taskId := none
  role := "coder"
  tool := none
  input := "in"
  output := "out"
  status := .succeeded
  policyDecisionId := none
  idempotencyKey := "key"
  payloadRef := none
  checksum := "sum"
  prevChecksum := none
  traceId := "trace"
  durationMs := 0
  createdAt := "2024-01-01T00:00:00.000Z"

/-- A save at the current revision, with an event that cannot be copied. -/
def haltedSave : MutationCall :=
  .saveWithEvents 0 [.notCloneable] { expectedRevision := some (.integer 1) }

end InMemoryStateStore

namespace Fencing

open InMemoryStateStore

/-- An owner with the first token, and another one with the second. -/
def twoHolders : Fin 2 → String × Nat
  | 0 => ("a", 1)
  | 1 => ("b", 2)

/-- The second owner records a decision; the first one writes `w`. -/
def twoWrites (w : GuardedWrite) : Fin 2 → GuardedWrite
  | 0 => w
  | 1 => .mutation (.recordDecision sampleDecision {})

/-- Deadlines in whole milliseconds. -/
def deadlineAfter (nowIso : Instant) (ttlMs : Nat) : Option Instant := some (nowIso + ttlMs)

/-- The first owner checks its lease, then the lease runs out and the second owner takes over and
writes; `last` follows. -/
def takeover (last : List (Move (Fin 2) Instant (Drift Nat))) :
    List (Move (Fin 2) Instant (Drift Nat)) :=
  [.drift (.lock (.acquire "run" "a" 0 10)), .client ⟨0, Nat.zero_lt_two⟩ 5,
    .drift (.lock (.acquire "run" "b" 10 10)), .client ⟨1, Nat.one_lt_two⟩ 15,
    .client ⟨1, Nat.one_lt_two⟩ 15] ++ last

/-- A save of the first owner that still holds the old revision. -/
def staleSave : GuardedWrite := .mutation (.save 0 { expectedRevision := some (.integer 1) })

/-- The tokens that a run leaves. -/
def tokensAfter (w : GuardedWrite) (last : List (Move (Fin 2) Instant (Drift Nat))) :
    Option (List Nat) :=
  ((start "run" twoHolders (twoWrites w) sampleStore).run
    (server sampleHost deadlineAfter (handleOf "run" twoHolders)) (takeover last)).map
      fun q => q.state.tokens

/-- The write `w` of the first owner takes effect after that of the second. -/
def TakesEffectLate (w : GuardedWrite) : Prop :=
  ∃ q, (start "run" twoHolders (twoWrites w) sampleStore).run
      (server sampleHost deadlineAfter (handleOf "run" twoHolders))
      (takeover [.client ⟨0, Nat.zero_lt_two⟩ 15]) = some q ∧
    q.state.tokens = [2, 1] ∧ ¬ q.state.tokens.Pairwise (· ≤ ·)

theorem takesEffectLate_of_tokens {w : GuardedWrite}
    (h : tokensAfter w [.client 0 15] = some [2, 1]) : TakesEffectLate w := by
  obtain ⟨q, run, hq⟩ := Option.map_eq_some_iff.mp h
  refine ⟨q, run, hq, ?_⟩
  rw [hq]
  decide

end Fencing

namespace PostgresStateStore

/-- **The PostgreSQL store loses no update.** In every run of calls of clients, whatever fails,
revisions are consecutive, and every statement leaves the committed tables alone or commits one
call: the effect of a recording operation on the committed snapshot, or the argument of a save, at
the next revision, together with its rows of the logs, where the expected revision of the call is
the committed one. -/
theorem no_lost_update {ι Stored : Type} [DecidableEq ι] {encode : ProjectState → Stored}
    {decode : Stored → Option ProjectState} {calls : ι → StoreCall} {inputs : ι → ProjectInput}
    {snapshots : List (SnapshotRow Stored)} {logs : List LogRow} {moves : List (Move ι Fate Empty)}
    {q : Pool ι (Statement Stored) (fun o => Except RuntimeError o.Res)
      (Except RuntimeError Unit) (Database ι Stored)}
    (run : (start encode decode calls inputs snapshots logs).run server moves = some q) :
    Consecutive snapshots q.state.snapshots ∧
    ∀ i fate r, q.move server (.client i fate) = some r →
      r.state.snapshots = q.state.snapshots ∧ r.state.logs = q.state.logs ∨
      Commits encode decode (inputs i).initialState (calls i) q.state r.state := by
  refine ⟨consecutive_of_run run, fun i fate r step => ?_⟩
  rcases (guar_of_run run step).tables with hsame | ⟨-, hcommits⟩
  · exact Or.inl hsame
  · exact Or.inr hcommits

/-- A client of a small project. -/
def sampleInput : ProjectInput where
  orgId := none
  projectId := "P-1"
  projectName := "Parser"
  summary := "A parser"

/-- The call `i` executes `n` statements. -/
def statements (i : Fin 2) (n : Nat) : List (Move (Fin 2) Fate Empty) :=
  List.replicate n (.client i .executed)

/-- Two clients record a decision. -/
def twoDecisions (_ : Fin 2) : StoreCall := .recordDecision InMemoryStateStore.sampleDecision {}

/-- Both clients load before the first one commits; the second one finds a conflict and rolls its
row of the log back. -/
theorem no_lost_update_conflict :
    ∃ q, (start id some twoDecisions (fun _ => sampleInput) [] []).run server
        (statements 0 2 ++ statements 1 4 ++ statements 0 6 ++ statements 1 3) = some q ∧
      q.state.snapshots.map SnapshotRow.revision = [1] ∧ q.state.logs.length = 1 ∧
      Consecutive [] q.state.snapshots := by
  have hrevisions : ((start id some twoDecisions (fun _ => sampleInput) [] []).run server
      (statements 0 2 ++ statements 1 4 ++ statements 0 6 ++ statements 1 3)).map
        (fun q => (q.state.snapshots.map SnapshotRow.revision, q.state.logs.length)) =
      some ([1], 1) := by decide
  obtain ⟨q, run, hq⟩ := Option.map_eq_some_iff.mp hrevisions
  obtain ⟨hsnapshots, hlogs⟩ := Prod.mk.inj hq
  exact ⟨q, run, hsnapshots, hlogs, (no_lost_update run).1⟩

/-- The first snapshot of the small project. -/
def firstSnapshot : ProjectState := { sampleInput.initialState with summary := "A fast parser" }

/-- A save of that snapshot, and a save of the initial state with the expected revision of the
snapshot. -/
def overridingSave : Fin 2 → StoreCall
  | 0 => .save firstSnapshot {}
  | 1 => .save sampleInput.initialState { expectedRevision := some (.integer 1) }

/-- **An expected revision overrides that of the argument**: the second save commits a state whose
own revision is not the committed one, and the first one's summary is gone. -/
theorem save_overrides :
    ∃ q r, (start id some overridingSave (fun _ => sampleInput) [] []).run server
        (statements 0 6 ++ statements 1 5) = some q ∧
      q.move server (.client 1 .executed) = some r ∧
      r.state.snapshots =
        q.state.snapshots ++ [⟨2, { sampleInput.initialState with revision := 2 }⟩] ∧
      currentRevision q.state.snapshots = 1 ∧ sampleInput.initialState.revision ≠ 1 := by
  have hcommits : ((start id some overridingSave (fun _ => sampleInput) [] []).run server
      (statements 0 6 ++ statements 1 5)).bind (fun q =>
        (q.move server (.client 1 .executed)).map fun r =>
          (q.state.snapshots, r.state.snapshots)) =
      some ([⟨1, { firstSnapshot with revision := 1 }⟩],
        [⟨1, { firstSnapshot with revision := 1 }⟩,
          ⟨2, { sampleInput.initialState with revision := 2 }⟩]) := by decide
  obtain ⟨q, run, hq⟩ := Option.bind_eq_some_iff.mp hcommits
  obtain ⟨r, step, hr⟩ := Option.map_eq_some_iff.mp hq
  obtain ⟨hbefore, hafter⟩ := Prod.mk.inj hr
  refine ⟨q, r, run, step, ?_, ?_, by decide⟩
  · rw [hafter, hbefore]
    rfl
  · rw [hbefore]
    rfl

end PostgresStateStore

end AiOrchestrator
