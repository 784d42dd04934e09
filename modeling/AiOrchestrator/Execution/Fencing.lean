import AiOrchestrator.Lib.Interleave
import AiOrchestrator.State.Locks
import AiOrchestrator.State.Memory

/-!
# Writes under a lease

`createLeaseProtectedStateStore` and the handle of `createExecutionLeaseAuthority`
(`packages/execution/src/leases`): each of the nine writes of the state store first asks the lock
store whether the lease of its holder is still valid, and then writes. These are two operations,
and between them anything may happen: the lease may run out, others may acquire and release, and
other writes may take effect.

A run interleaves any number of such calls with calls of the lock store at arbitrary time stamps,
and with changes that callers make to their own state objects. The state carries two ghosts: the
tokens of the writes that took effect, in order, and for each call whether a holder of a newer
token has written since the call checked its lease.

`Known` says that a token is no newer than the lease stored for the resource. Lock calls keep it
(`Known.call`), because tokens only grow; a lease check that succeeds knows every token that was
ever checked. So a write that no newer holder has overtaken since its check appends the largest
token so far.
-/

namespace AiOrchestrator

/-- `ExecutionLeaseHandle`: what its closure holds. `renew` and `validate` keep the token. -/
structure ExecutionLeaseHandle where
  resource : String
  ownerId : String
  fencingToken : Nat

/-- The writes that the wrapper guards. -/
inductive GuardedWrite
  | mutation (c : MutationCall)
  | recordEvent (event : EventArgument)

namespace GuardedWrite

/-- The effect of a write on the underlying store; only mutations reply with a value. -/
def exec (host : Host) (store : InMemoryStateStore) :
    GuardedWrite → Except RuntimeError (Option MutationReply) × InMemoryStateStore
  | mutation c =>
    ((InMemoryStateStore.exec host c store).1.map some, (InMemoryStateStore.exec host c store).2)
  | recordEvent event =>
    match event.structuredClone with
    | .ok record => (.ok none, { store with events := store.events ++ [record] })
    | .error e => (.error e, store)

/-- **A write is admitted** by the store as it stands: a snapshot is valid and expects the current
revision; a run step may follow the log; an event can be copied. -/
def Admitted (host : Host) (store : InMemoryStateStore) : GuardedWrite → Prop
  | mutation (.recordRunStep step) =>
    ∃ next, InMemoryStateStore.recordRunStep host store.state step = .ok next
  | mutation c => c.Succeeds store
  | recordEvent event => ∃ record, event = .record record

end GuardedWrite

namespace InMemoryStateStore

/-- **A write has taken effect**: the snapshot differs, or there are more events. -/
def changed (store store' : InMemoryStateStore) : Bool :=
  decide (store'.state ≠ store.state ∨ store'.events.length ≠ store.events.length)

theorem changed_self (store : InMemoryStateStore) : changed store store = false := by
  simp [changed]

end InMemoryStateStore

open InMemoryStateStore in
/-- **Writes take effect exactly where they are admitted.** -/
theorem GuardedWrite.changed_iff (host : Host) (store : InMemoryStateStore) (w : GuardedWrite) :
    changed store (w.exec host store).2 = true ↔ w.Admitted host store := by
  cases w with
  | recordEvent event =>
    cases event with
    | record record => simp [exec, EventArgument.structuredClone, changed, Admitted]
    | notCloneable => simp [exec, EventArgument.structuredClone, changed, Admitted]
  | mutation c =>
    by_cases hc : c.IsSnapshot
    · have hadmitted : (mutation c).Admitted host store ↔ c.Succeeds store := by
        cases c with
        | recordRunStep step => cases hc
        | _ => exact Iff.rfl
      rw [hadmitted]
      have hrevision : ∀ argument events,
          (store.committed argument events).state ≠ store.state := by
        intro argument events h
        have hnext := congrArg ProjectState.revision h
        exact absurd hnext (Nat.succ_ne_self _)
      rcases exec_snapshot host hc store with ⟨argument, hargument, haccepts, hcase⟩ | ⟨hnot, e, hexec⟩
      · have hwritten : changed store ((mutation c).exec host store).2 = true := by
          rcases hcase with ⟨-, reply, -, hexec⟩ | ⟨-, hexec⟩
          · simp [exec, hexec, changed, hrevision]
          · simp [exec, hexec, changed, hrevision]
        exact ⟨fun _ => ⟨argument, hargument, haccepts⟩, fun _ => hwritten⟩
      · simp [exec, hexec, changed_self, hnot]
    · cases c with
      | recordRunStep step =>
        rcases exec_recordRunStep host step store with ⟨next, hnext, hexec⟩ | ⟨e, herror, hexec⟩
        · have hlog : next.execution.runStepLog.length ≠
              store.state.execution.runStepLog.length := by
            rw [(recordRunStep_ok hnext).1]
            simp [withRunStep]
          have hstate : next ≠ store.state := by
            rintro rfl
            exact hlog rfl
          simp [exec, hexec, changed, hstate, Admitted, hnext]
        · simp [exec, hexec, changed_self, Admitted, herror]
      | _ => exact absurd trivial hc

/-! ### Tokens of a lock store -/

namespace InMemoryDistributedLockStore

variable {Ttl : Type} {deadline : Instant → Ttl → Option Instant}
  {locks : InMemoryDistributedLockStore} {resource : String} {token : Nat}

/-- No stored token is ahead of the counter. -/
def Bounded (locks : InMemoryDistributedLockStore) : Prop :=
  ∀ resource current, locks.records.get? resource = some current →
    current.lease.fencingToken ≤ locks.globalFencingCounter

/-- **A token is known**: no newer than the lease stored for the resource, nor than any later
one. -/
structure Known (locks : InMemoryDistributedLockStore) (resource : String) (token : Nat) :
    Prop where
  counter : token ≤ locks.globalFencingCounter
  stored : ∀ current, locks.records.get? resource = some current →
    token ≤ current.lease.fencingToken

/-- What a lock call does to the tokens: the counter does not fall, and a token stored after the
call was stored before it or is larger than the counter was. -/
theorem call_tokens (deadline : Instant → Ttl → Option Instant)
    (locks : InMemoryDistributedLockStore) (c : LockCall Ttl) :
    locks.globalFencingCounter ≤ (locks.call deadline c).2.globalFencingCounter ∧
      ∀ resource current, (locks.call deadline c).2.records.get? resource = some current →
        current.lease.fencingToken ≤ (locks.call deadline c).2.globalFencingCounter ∧
            locks.globalFencingCounter < current.lease.fencingToken ∨
          ∃ previous, locks.records.get? resource = some previous ∧
            previous.lease.fencingToken = current.lease.fencingToken := by
  cases c with
  | acquire resource ownerId nowIso ttlMs =>
    rcases acquire_cases deadline locks resource ownerId nowIso ttlMs with
      ⟨current, -, -, heq⟩ | ⟨-, ⟨-, hlocks⟩ | ⟨expiresAtIso, lease, hlease, heq⟩⟩
    · simp only [call, heq]
      exact ⟨Nat.le_refl _, fun _ current hget => Or.inr ⟨current, hget, rfl⟩⟩
    · simp only [call, hlocks, nextFencingToken]
      exact ⟨Nat.le_succ _, fun _ current hget => Or.inr ⟨current, hget, rfl⟩⟩
    · simp only [call, heq]
      refine ⟨Nat.le_succ _, fun resource' current hget => ?_⟩
      rw [Dict.get?_set] at hget
      split at hget
      · -- the new lease carries the next token
        obtain rfl := Option.some.inj hget
        rw [hlease]
        exact Or.inl ⟨Nat.le_refl _, Nat.lt_succ_self _⟩
      · exact Or.inr ⟨current, hget, rfl⟩
  | renew resource ownerId fencingToken nowIso ttlMs =>
    rcases renew_cases deadline locks resource ownerId fencingToken nowIso ttlMs with
      ⟨reason, lease, heq⟩ | ⟨current, hget, -, heq | ⟨expiresAtIso, heq⟩⟩
    · simp only [call, heq]
      exact ⟨Nat.le_refl _, fun _ current hget => Or.inr ⟨current, hget, rfl⟩⟩
    · simp only [call, heq]
      exact ⟨Nat.le_refl _, fun _ current hget => Or.inr ⟨current, hget, rfl⟩⟩
    · simp only [call, heq]
      refine ⟨Nat.le_refl _, fun resource' current' hget' => ?_⟩
      rw [Dict.get?_set] at hget'
      split at hget'
      · -- a renewal moves the deadline alone
        rename_i hresource
        obtain rfl := Option.some.inj hget'
        exact Or.inr ⟨current, hresource ▸ hget, rfl⟩
      · exact Or.inr ⟨current', hget', rfl⟩
  | release resource ownerId fencingToken =>
    rcases release_cases locks resource ownerId fencingToken with
      ⟨reason, lease, heq⟩ | ⟨current, -, -, -, heq⟩
    · simp only [call, heq]
      exact ⟨Nat.le_refl _, fun _ current hget => Or.inr ⟨current, hget, rfl⟩⟩
    · simp only [call, heq]
      refine ⟨Nat.le_refl _, fun resource' current' hget' => ?_⟩
      rw [Dict.get?_erase] at hget'
      split at hget'
      · cases hget'
      · exact Or.inr ⟨current', hget', rfl⟩
  | validate resource ownerId fencingToken nowIso =>
    exact ⟨Nat.le_refl _, fun _ current hget => Or.inr ⟨current, hget, rfl⟩⟩

theorem Bounded.call (h : Bounded locks) (c : LockCall Ttl) :
    Bounded (locks.call deadline c).2 := by
  intro resource current hget
  obtain ⟨hcounter, hstored⟩ := call_tokens deadline locks c
  rcases hstored resource current hget with ⟨hle, -⟩ | ⟨previous, hprevious, htoken⟩
  · exact hle
  · rw [← htoken]
    exact (h resource previous hprevious).trans hcounter

/-- **Lock calls keep a token known.** -/
theorem Known.call (h : Known locks resource token) (c : LockCall Ttl) :
    Known (locks.call deadline c).2 resource token := by
  obtain ⟨hcounter, hstored⟩ := call_tokens deadline locks c
  refine ⟨h.counter.trans hcounter, fun current hget => ?_⟩
  rcases hstored resource current hget with ⟨-, hnew⟩ | ⟨previous, hprevious, htoken⟩
  · exact h.counter.trans (Nat.le_of_lt hnew)
  · rw [← htoken]
    exact h.stored previous hprevious

/-- **A lease check that succeeds** presents a known token, and no known token is newer. -/
theorem Bounded.known {ownerId : String} {nowIso : Instant} (h : Bounded locks)
    (hvalid : locks.Validates resource ownerId token nowIso) :
    Known locks resource token ∧ ∀ older, Known locks resource older → older ≤ token := by
  obtain ⟨current, hget, -, -, rfl⟩ := validates_iff.mp hvalid
  refine ⟨⟨h resource current hget, fun current' hget' => ?_⟩, fun older hknown => ?_⟩
  · obtain rfl := Option.some.inj (hget.symm.trans hget')
    exact Nat.le_refl _
  · exact hknown.stored current hget

end InMemoryDistributedLockStore

/-! ### Guarded calls -/

/-- The two operations of a guarded call. -/
inductive GuardedOp
  | validate (handle : ExecutionLeaseHandle)
  | write (handle : ExecutionLeaseHandle) (w : GuardedWrite)

/-- What they are answered with. -/
@[reducible] def GuardedOp.Ans : GuardedOp → Type
  | validate _ => LockReply
  | write _ _ => Except RuntimeError (Option MutationReply)

abbrev Guarded := Act RuntimeError GuardedOp GuardedOp.Ans

/-- Perform an operation. -/
def GuardedOp.perform (o : GuardedOp) : Guarded o.Ans := Act.perform o

namespace ExecutionLeaseHandle

/-- `requireValid`. -/
def requireValid (handle : ExecutionLeaseHandle) : Guarded Unit := do
  let reply : LockReply ← (GuardedOp.validate handle).perform
  match reply with
  | .granted _ => pure ()
  | _ => throw (.workflowPolicy "Execution lease is no longer valid")

end ExecutionLeaseHandle

/-- What every guarded write does: `requireLease`, then the write. -/
def protect (handle : ExecutionLeaseHandle) (w : GuardedWrite) :
    Guarded (Option MutationReply) := do
  handle.requireValid
  let reply : Except RuntimeError (Option MutationReply) ← (GuardedOp.write handle w).perform
  Act.ofExcept reply

/-! The members of `createLeaseProtectedStateStore`. -/

namespace LeaseProtectedStateStore

variable (handle : ExecutionLeaseHandle)

def save (object : Nat) (options : StateWriteOptions) : Guarded (Option MutationReply) :=
  protect handle (.mutation (.save object options))

def saveWithEvents (object : Nat) (events : List EventArgument) (options : StateWriteOptions) :
    Guarded (Option MutationReply) :=
  protect handle (.mutation (.saveWithEvents object events options))

def recordEvent (event : EventArgument) : Guarded (Option MutationReply) :=
  protect handle (.recordEvent event)

def recordFailure (id createdAt : String) (input : RecordFailureInput)
    (options : StateWriteOptions) : Guarded (Option MutationReply) :=
  protect handle (.mutation (.recordFailure id createdAt input options))

def recordArtifact (artifact : ArtifactRecord) (options : StateWriteOptions) :
    Guarded (Option MutationReply) :=
  protect handle (.mutation (.recordArtifact artifact options))

def recordDecision (decision : DecisionLogItem) (options : StateWriteOptions) :
    Guarded (Option MutationReply) :=
  protect handle (.mutation (.recordDecision decision options))

def recordRunStep (step : RunStepLogEntry) : Guarded (Option MutationReply) :=
  protect handle (.mutation (.recordRunStep step))

def recordPolicyDecision (decision : ExecutionPolicyDecision) (options : StateWriteOptions) :
    Guarded (Option MutationReply) :=
  protect handle (.mutation (.recordPolicyDecision decision options))

def markTaskDone (id createdAt taskId summary : String) (options : StateWriteOptions) :
    Guarded (Option MutationReply) :=
  protect handle (.mutation (.markTaskDone id createdAt taskId summary options))

/-- A write issued through the wrapper. -/
def call : GuardedWrite → Guarded (Option MutationReply)
  | .recordEvent event => recordEvent handle event
  | .mutation (.save object options) => save handle object options
  | .mutation (.saveWithEvents object events options) =>
    saveWithEvents handle object events options
  | .mutation (.recordFailure id createdAt input options) =>
    recordFailure handle id createdAt input options
  | .mutation (.recordArtifact artifact options) => recordArtifact handle artifact options
  | .mutation (.recordDecision decision options) => recordDecision handle decision options
  | .mutation (.recordPolicyDecision decision options) =>
    recordPolicyDecision handle decision options
  | .mutation (.recordRunStep step) => recordRunStep handle step
  | .mutation (.markTaskDone id createdAt taskId summary options) =>
    markTaskDone handle id createdAt taskId summary options

theorem call_eq (w : GuardedWrite) : call handle w = protect handle w := by
  cases w with
  | recordEvent event => rfl
  | mutation c => cases c <;> rfl

end LeaseProtectedStateStore

/-! ### Interleavings -/

namespace Fencing

/-- The lock store and the state store, with the ghosts. -/
structure Shared (ι : Type) where
  locks : InMemoryDistributedLockStore
  store : InMemoryStateStore
  /-- The tokens of the writes that took effect, oldest first. -/
  tokens : List Nat
  /-- A holder of a newer token has written since the lease check of the call. -/
  overtaken : ι → Bool

/-- What happens besides the guarded calls: a call of the lock store, or a change that a caller
makes to a state object of its own, a fresh load for instance. -/
inductive Drift (Ttl : Type)
  | lock (c : LockCall Ttl)
  | edit (object : Nat) (state : ProjectState)

section Server

variable {ι Ttl : Type} [DecidableEq ι] (host : Host)
  (deadline : Instant → Ttl → Option Instant) (handles : ι → ExecutionLeaseHandle)

/-- A write of the call `i` has taken effect. -/
def Shared.wrote (s : Shared ι) (i : ι) : Shared ι :=
  { s with
    tokens := s.tokens ++ [(handles i).fencingToken]
    overtaken := fun j =>
      s.overtaken j || decide ((handles j).fencingToken < (handles i).fencingToken) }

/-- The time stamp of a lease check is a choice of its caller. -/
def server : Server ι GuardedOp GuardedOp.Ans (Shared ι) Instant (Drift Ttl) where
  serve i nowIso
    | .validate handle, s =>
      some (s.locks.validate handle.resource handle.ownerId handle.fencingToken nowIso,
        { s with overtaken := Function.update s.overtaken i false })
    | .write _ w, s =>
      let s' := { s with store := (w.exec host s.store).2 }
      some ((w.exec host s.store).1,
        if InMemoryStateStore.changed s.store s'.store then s'.wrote handles i else s')
  drift
    | .lock c, s => some { s with locks := (s.locks.call deadline c).2 }
    | .edit object state, s =>
      some { s with
        store := { s.store with objects := Function.update s.store.objects object state } }

end Server

variable {ι Ttl : Type} [DecidableEq ι]

/-- The handles of a resource. -/
def handleOf (resource : String) (holders : ι → String × Nat) (i : ι) : ExecutionLeaseHandle where
  resource := resource
  ownerId := (holders i).1
  fencingToken := (holders i).2

/-- **Guarded calls** on a resource, each by a holder with an owner and a token, before the first
lease is acquired. -/
def start (resource : String) (holders : ι → String × Nat) (writes : ι → GuardedWrite)
    (store : InMemoryStateStore) :
    Pool ι GuardedOp GuardedOp.Ans (Except RuntimeError (Option MutationReply)) (Shared ι) where
  threads i := (LeaseProtectedStateStore.call (handleOf resource holders i) (writes i)).run
  state := { locks := {}, store, tokens := [], overtaken := fun _ => false }

/-- The call `i` has checked its lease and is about to write. -/
def Writing (p : Pool ι GuardedOp GuardedOp.Ans (Except RuntimeError (Option MutationReply))
    (Shared ι)) (i : ι) : Prop :=
  ∃ handle w k, p.threads i = .ask (.write handle w) k

/-- A move is **not a late write**: a call that writes after a holder of a newer token has written
since its lease check is not admitted by the store. -/
def NotLate (host : Host) (writes : ι → GuardedWrite)
    (p : Pool ι GuardedOp GuardedOp.Ans (Except RuntimeError (Option MutationReply)) (Shared ι)) :
    Move ι Instant (Drift Ttl) → Prop
  | .client i _ =>
    Writing p i → p.state.overtaken i = true → ¬ (writes i).Admitted host p.state.store
  | .drift _ => True

/-! ### The invariant -/

omit [DecidableEq ι]

/-- A guarded call after its lease check. -/
def writing (handle : ExecutionLeaseHandle) (w : GuardedWrite) :
    Prog GuardedOp GuardedOp.Ans (Except RuntimeError (Option MutationReply)) :=
  .ask (.write handle w) fun reply => .ret reply

theorem protect_run (handle : ExecutionLeaseHandle) (w : GuardedWrite) :
    (protect handle w).run = .ask (.validate handle) fun reply =>
      match reply with
      | .granted _ => writing handle w
      | _ => .ret (.error (.workflowPolicy "Execution lease is no longer valid")) := by
  refine congrArg (Prog.ask (GuardedOp.validate handle)) ?_
  funext reply
  cases reply <;> rfl

variable {host : Host} {deadline : Instant → Ttl → Option Instant} {resource : String}
  {holders : ι → String × Nat} {writes : ι → GuardedWrite} {store : InMemoryStateStore}
  {p q : Pool ι GuardedOp GuardedOp.Ans (Except RuntimeError (Option MutationReply)) (Shared ι)}

/-- Where a guarded call stands. After its lease check it has a known token, and the writes that
took effect have no newer one unless it has been overtaken. -/
inductive Stage (resource : String) (holders : ι → String × Nat) (writes : ι → GuardedWrite)
    (s : Shared ι) (i : ι) :
    Prog GuardedOp GuardedOp.Ans (Except RuntimeError (Option MutationReply)) → Prop
  | checking : Stage resource holders writes s i
      (protect (handleOf resource holders i) (writes i)).run
  | writing (known : s.locks.Known resource (holders i).2)
      (newest : s.overtaken i = false → ∀ token ∈ s.tokens, token ≤ (holders i).2) :
      Stage resource holders writes s i (writing (handleOf resource holders i) (writes i))
  | done (r : Except RuntimeError (Option MutationReply)) :
      Stage resource holders writes s i (.ret r)

/-- A call stays where it is while the state changes under it. -/
theorem Stage.mono {s s' : Shared ι} {i : ι}
    {thread : Prog GuardedOp GuardedOp.Ans (Except RuntimeError (Option MutationReply))}
    (h : Stage resource holders writes s i thread)
    (hknown : s.locks.Known resource (holders i).2 → s'.locks.Known resource (holders i).2)
    (hnewest : (s.overtaken i = false → ∀ token ∈ s.tokens, token ≤ (holders i).2) →
      s'.overtaken i = false → ∀ token ∈ s'.tokens, token ≤ (holders i).2) :
    Stage resource holders writes s' i thread := by
  cases h with
  | checking => exact .checking
  | writing known newest => exact .writing (hknown known) (hnewest newest)
  | done r => exact .done r

/-- **The invariant of a run.** -/
structure Guards (resource : String) (holders : ι → String × Nat) (writes : ι → GuardedWrite)
    (p : Pool ι GuardedOp GuardedOp.Ans (Except RuntimeError (Option MutationReply)) (Shared ι)) :
    Prop where
  bounded : p.state.locks.Bounded
  known : ∀ token ∈ p.state.tokens, p.state.locks.Known resource token
  overtaken : ∀ i, p.state.overtaken i = true → ∃ token ∈ p.state.tokens, (holders i).2 < token
  stages : ∀ i, Stage resource holders writes p.state i (p.threads i)

theorem guards_start (resource : String) (holders : ι → String × Nat) (writes : ι → GuardedWrite)
    (store : InMemoryStateStore) :
    Guards resource holders writes (start resource holders writes store) where
  bounded := by
    intro resource current hget
    simp only [start, Dict.get?_empty] at hget
    cases hget
  known token htoken := by cases htoken
  overtaken i h := by cases h
  stages i := by
    simp only [start, LeaseProtectedStateStore.call_eq]
    exact .checking

variable [DecidableEq ι]

/-- Lock calls and changes to state objects. -/
theorem Guards.drift {e : Drift Ttl} (h : Guards resource holders writes p)
    (hmove : p.move (server host deadline (handleOf resource holders)) (.drift e) = some q) :
    Guards resource holders writes q ∧ q.state.tokens = p.state.tokens := by
  obtain ⟨hdrift, hthreads⟩ := Pool.move_drift hmove
  cases e with
  | lock c =>
    obtain hstate := Option.some.inj hdrift
    rw [← hstate]
    refine ⟨⟨?_, ?_, ?_, fun i => ?_⟩, rfl⟩
    · rw [← hstate]
      exact h.bounded.call c
    · rw [← hstate]
      exact fun token htoken => (h.known token htoken).call c
    · rw [← hstate]
      exact h.overtaken
    · rw [hthreads, ← hstate]
      exact (h.stages i).mono (fun known => known.call c) id
  | edit object state =>
    obtain hstate := Option.some.inj hdrift
    rw [← hstate]
    refine ⟨⟨?_, ?_, ?_, fun i => ?_⟩, rfl⟩
    · rw [← hstate]
      exact h.bounded
    · rw [← hstate]
      exact h.known
    · rw [← hstate]
      exact h.overtaken
    · rw [hthreads, ← hstate]
      exact (h.stages i).mono id id

/-- **A lease check.** -/
theorem Guards.check {i : ι} {nowIso : Instant} (h : Guards resource holders writes p)
    (hthread : p.threads i = (protect (handleOf resource holders i) (writes i)).run)
    (hmove : p.move (server host deadline (handleOf resource holders)) (.client i nowIso) =
      some q) :
    Guards resource holders writes q ∧ q.state.tokens = p.state.tokens := by
  obtain ⟨o, k, x, hask, hserve, hthreads⟩ := Pool.move_client hmove
  rw [hthread, protect_run] at hask
  obtain ⟨rfl, hk⟩ := Prog.ask.inj hask
  obtain rfl := eq_of_heq hk
  obtain ⟨hx, hstate⟩ := Prod.mk.inj (Option.some.inj hserve)
  rw [← hstate]
  refine ⟨⟨?_, ?_, ?_, fun j => ?_⟩, rfl⟩
  · rw [← hstate]
    exact h.bounded
  · rw [← hstate]
    exact h.known
  · rw [← hstate]
    intro j hj
    by_cases hij : j = i
    · subst hij
      simp at hj
    · have hsame : Function.update p.state.overtaken i false j = p.state.overtaken j :=
        Function.update_of_ne hij false p.state.overtaken
      exact h.overtaken j (hsame ▸ hj)
  · rw [hthreads, ← hstate]
    by_cases hij : j = i
    · subst hij
      rw [Function.update_self]
      cases x with
      | granted lease =>
        -- the lease is the stored one, so nothing newer has ever been checked
        have hvalid : p.state.locks.Validates resource (holders j).1 (holders j).2 nowIso :=
          ⟨lease, hx⟩
        obtain ⟨known, newest⟩ := h.bounded.known hvalid
        exact .writing known fun _ token htoken => newest token (h.known token htoken)
      | released => exact .done _
      | refused reason lease => exact .done _
      | rangeError => exact .done _
    · rw [Function.update_of_ne hij]
      refine (h.stages j).mono id fun newest => ?_
      have hsame : Function.update p.state.overtaken i false j = p.state.overtaken j :=
        Function.update_of_ne hij false p.state.overtaken
      exact fun hfree => newest (hsame ▸ hfree)

/-- **A write** appends its token if the store admits it. -/
theorem Guards.write {i : ι} {nowIso : Instant} (h : Guards resource holders writes p)
    (hthread : p.threads i = writing (handleOf resource holders i) (writes i))
    (hknown : p.state.locks.Known resource (holders i).2)
    (hmove : p.move (server host deadline (handleOf resource holders)) (.client i nowIso) =
      some q) :
    Guards resource holders writes q ∧
      ((writes i).Admitted host p.state.store ∧
          q.state.tokens = p.state.tokens ++ [(holders i).2] ∨
        ¬ (writes i).Admitted host p.state.store ∧ q.state.tokens = p.state.tokens) := by
  obtain ⟨o, k, x, hask, hserve, hthreads⟩ := Pool.move_client hmove
  rw [hthread] at hask
  obtain ⟨rfl, hk⟩ := Prog.ask.inj hask
  obtain rfl := eq_of_heq hk
  obtain ⟨-, hstate⟩ := Prod.mk.inj (Option.some.inj hserve)
  have hadmitted := (writes i).changed_iff host p.state.store
  have hdone : ∀ s : Shared ι, Stage resource holders writes s i (q.threads i) := by
    intro s
    rw [hthreads, Function.update_self]
    exact .done x
  have hothers : ∀ j, j ≠ i → q.threads j = p.threads j := fun j hij => by
    rw [hthreads, Function.update_of_ne hij]
  by_cases hchanged :
      InMemoryStateStore.changed p.state.store ((writes i).exec host p.state.store).2 = true
  · rw [if_pos hchanged] at hstate
    have htokens : q.state.tokens = p.state.tokens ++ [(holders i).2] := by
      rw [← hstate]
      rfl
    have hlocks : q.state.locks = p.state.locks := by
      rw [← hstate]
      rfl
    have hovertaken : ∀ j, q.state.overtaken j =
        (p.state.overtaken j || decide ((holders j).2 < (holders i).2)) := fun j => by
      rw [← hstate]
      rfl
    refine ⟨⟨?_, ?_, ?_, fun j => ?_⟩, Or.inl ⟨hadmitted.mp hchanged, htokens⟩⟩
    · rw [hlocks]
      exact h.bounded
    · intro token htoken
      rw [hlocks]
      rw [htokens, List.mem_append, List.mem_singleton] at htoken
      rcases htoken with hold | rfl
      · exact h.known token hold
      · exact hknown
    · intro j hj
      rw [htokens]
      rw [hovertaken, Bool.or_eq_true, decide_eq_true_eq] at hj
      rcases hj with hold | hnew
      · obtain ⟨token, htoken, hlt⟩ := h.overtaken j hold
        exact ⟨token, List.mem_append_left _ htoken, hlt⟩
      · exact ⟨_, List.mem_append_right _ (List.mem_singleton_self _), hnew⟩
    · by_cases hij : j = i
      · subst hij
        exact hdone q.state
      · rw [hothers j hij]
        refine (h.stages j).mono (fun known => by rwa [hlocks]) fun newest hfree token htoken => ?_
        rw [hovertaken, Bool.or_eq_false_iff, decide_eq_false_iff_not] at hfree
        rw [htokens, List.mem_append, List.mem_singleton] at htoken
        rcases htoken with hold | rfl
        · exact newest hfree.1 token hold
        · exact Nat.le_of_not_lt hfree.2
  · rw [if_neg hchanged] at hstate
    have htokens : q.state.tokens = p.state.tokens := by
      rw [← hstate]
    have hlocks : q.state.locks = p.state.locks := by
      rw [← hstate]
    have hovertaken : q.state.overtaken = p.state.overtaken := by
      rw [← hstate]
    refine ⟨⟨?_, ?_, ?_, fun j => ?_⟩,
      Or.inr ⟨fun hyes => hchanged (hadmitted.mpr hyes), htokens⟩⟩
    · rw [hlocks]
      exact h.bounded
    · rw [hlocks, htokens]
      exact h.known
    · rw [hovertaken, htokens]
      exact h.overtaken
    · by_cases hij : j = i
      · subst hij
        exact hdone q.state
      · rw [hothers j hij]
        refine (h.stages j).mono (fun known => by rwa [hlocks]) fun newest => ?_
        rw [hovertaken, htokens]
        exact newest

/-- **One move**: the invariant is kept, and the tokens stay ordered exactly if the move is not a
late write. -/
theorem Guards.move {m : Move ι Instant (Drift Ttl)} (h : Guards resource holders writes p)
    (hmove : p.move (server host deadline (handleOf resource holders)) m = some q) :
    Guards resource holders writes q ∧
      (q.state.tokens.Pairwise (· ≤ ·) ↔
        p.state.tokens.Pairwise (· ≤ ·) ∧ NotLate host writes p m) := by
  cases m with
  | drift e =>
    obtain ⟨hguards, htokens⟩ := h.drift hmove
    rw [htokens]
    exact ⟨hguards, (and_iff_left trivial).symm⟩
  | client i nowIso =>
    have hstage := h.stages i
    generalize hthread : p.threads i = thread at hstage
    cases hstage with
    | checking =>
      obtain ⟨hguards, htokens⟩ := h.check hthread hmove
      rw [htokens]
      refine ⟨hguards, (and_iff_left ?_).symm⟩
      rintro ⟨handle, w, k, hwriting⟩
      rw [hthread, protect_run] at hwriting
      cases hwriting
    | writing known newest =>
      obtain ⟨hguards, hcase⟩ := h.write hthread known hmove
      refine ⟨hguards, ?_⟩
      rcases hcase with ⟨hadmitted, htokens⟩ | ⟨hrefused, htokens⟩
      · rw [htokens, List.pairwise_append]
        constructor
        · rintro ⟨hordered, -, hlast⟩
          refine ⟨hordered, fun _ hlate => ?_⟩
          -- some token so far is newer than the one that was appended
          obtain ⟨token, htoken, hlt⟩ := h.overtaken i hlate
          exact absurd (hlast token htoken _ (List.mem_singleton_self _)) (Nat.not_le_of_lt hlt)
        · rintro ⟨hordered, hnotlate⟩
          have hfree : p.state.overtaken i = false := by
            cases hlate : p.state.overtaken i with
            | false => rfl
            | true => exact absurd hadmitted (hnotlate ⟨_, _, _, hthread⟩ hlate)
          refine ⟨hordered, List.pairwise_singleton _ _, fun token htoken last hlast => ?_⟩
          obtain rfl := List.mem_singleton.mp hlast
          exact newest hfree token htoken
      · rw [htokens]
        exact (and_iff_left fun _ _ => hrefused).symm
    | done r =>
      obtain ⟨o, k, x, hask, -, -⟩ := Pool.move_client hmove
      rw [hthread] at hask
      cases hask

/-- **Every run**: the tokens are ordered exactly if no move is a late write. -/
theorem ordered_iff {moves : List (Move ι Instant (Drift Ttl))}
    (run : (start resource holders writes store).run
      (server host deadline (handleOf resource holders)) moves = some q) :
    Guards resource holders writes q ∧
      (q.state.tokens.Pairwise (· ≤ ·) ↔
        Pool.Along (server host deadline (handleOf resource holders)) (NotLate host writes)
          (start resource holders writes store) moves) := by
  induction moves using List.reverseRecOn generalizing q with
  | nil =>
    obtain rfl := Option.some.inj run
    exact ⟨guards_start resource holders writes store,
      iff_of_true List.Pairwise.nil Pool.along_nil⟩
  | append_singleton moves m ih =>
    obtain ⟨r, hr, hlast⟩ := Pool.run_append.mp run
    obtain ⟨q', hmove, hq'⟩ := Pool.run_cons.mp hlast
    obtain rfl := Option.some.inj hq'
    obtain ⟨hguards, hordered⟩ := ih hr
    obtain ⟨hguards', hstep⟩ := hguards.move hmove
    rw [Pool.along_concat hr, ← hordered]
    exact ⟨hguards', hstep⟩

end Fencing

end AiOrchestrator
