import AiOrchestrator.Core.Errors
import AiOrchestrator.State.Locks

/-!
# Queue leases

`InMemoryQueueLeaseStore` (`packages/state/src/leases/lease-store.ts`) keeps one lease a job, and
`QueueLeaseManager` (`packages/execution/src/worker/lease-manager.ts`) is what a worker calls it through.
As in the lock store, a time stamp is read as the instant it names, and the text of `now + ttlMs` is a
parameter `deadline`, `none` where `toISOString` throws.

Expiry is only looked at by an acquisition: a heartbeat renews a lease that has run out as long as no
other has taken its place. Each call is described by what it can do to the store (`acquire_cases`,
`heartbeat_cases`, `release_cases`), and runs are followed by these.
-/

namespace AiOrchestrator

structure QueueLease where
  jobId : String
  ownerId : String
  leaseId : String
  acquiredAtIso : Instant
  expiresAtIso : Instant
  heartbeatAtIso : Instant
deriving DecidableEq, Repr

inductive QueueLeaseRefusal
  | missingLease | leaseOwnerMismatch
deriving DecidableEq, Repr

inductive AcquireQueueLeaseResult
  | acquired (lease : QueueLease)
  | alreadyLeased (lease : QueueLease)

inductive HeartbeatQueueLeaseResult
  | renewed (lease : QueueLease)
  | refused (reason : QueueLeaseRefusal) (lease : Option QueueLease)

inductive ReleaseQueueLeaseResult
  | released
  | refused (reason : QueueLeaseRefusal) (lease : Option QueueLease)

structure InMemoryQueueLeaseStore where
  leases : Dict String QueueLease := ∅

/-- What `toISOString` throws. -/
def invalidTimeValue : RuntimeError := .plain "Invalid time value"

namespace InMemoryQueueLeaseStore

variable {Ttl : Type} (deadline : Instant → Ttl → Option Instant)

/-- **`acquire`**. -/
def acquire (store : InMemoryQueueLeaseStore) (jobId ownerId leaseId : String) (ttlMs : Ttl)
    (nowIso : Instant) : Except RuntimeError AcquireQueueLeaseResult × InMemoryQueueLeaseStore :=
  let free :=
    match deadline nowIso ttlMs with
    | none => (.error invalidTimeValue, store)
    | some expiresAtIso =>
      let lease : QueueLease :=
        { jobId, ownerId, leaseId, acquiredAtIso := nowIso, heartbeatAtIso := nowIso, expiresAtIso }
      (.ok (.acquired lease), { leases := store.leases.set jobId lease })
  match store.leases.get? jobId with
  | some current =>
    if current.expiresAtIso > nowIso then (.ok (.alreadyLeased current), store) else free
  | none => free

/-- `extendLease`. -/
def extendLease (current : QueueLease) (nowIso : Instant) (ttlMs : Ttl) :
    Except RuntimeError QueueLease :=
  match deadline nowIso ttlMs with
  | none => .error invalidTimeValue
  | some expiresAtIso => .ok { current with heartbeatAtIso := nowIso, expiresAtIso }

/-- **`heartbeat`**. -/
def heartbeat (store : InMemoryQueueLeaseStore) (jobId ownerId leaseId : String) (ttlMs : Ttl)
    (nowIso : Instant) : Except RuntimeError HeartbeatQueueLeaseResult × InMemoryQueueLeaseStore :=
  match store.leases.get? jobId with
  | none => (.ok (.refused .missingLease none), store)
  | some current =>
    if current.ownerId ≠ ownerId ∨ current.leaseId ≠ leaseId then
      (.ok (.refused .leaseOwnerMismatch (some current)), store)
    else
      match extendLease deadline current nowIso ttlMs with
      | .error e => (.error e, store)
      | .ok lease => (.ok (.renewed lease), { leases := store.leases.set jobId lease })

/-- **`release`**. -/
def release (store : InMemoryQueueLeaseStore) (jobId ownerId leaseId : String) :
    ReleaseQueueLeaseResult × InMemoryQueueLeaseStore :=
  match store.leases.get? jobId with
  | none => (.refused .missingLease none, store)
  | some current =>
    if current.ownerId ≠ ownerId ∨ current.leaseId ≠ leaseId then
      (.refused .leaseOwnerMismatch (some current), store)
    else (.released, { leases := store.leases.erase jobId })

end InMemoryQueueLeaseStore

/-! ### Managers -/

/-- A manager: its options, without the clock, whose readings come with the calls. -/
structure QueueLeaseManager (Ttl : Type) where
  ownerId : String
  ttlMs : Ttl

/-- A handle, with the manager whose calls it makes. -/
structure QueueLeaseHandle (Ttl : Type) where
  manager : QueueLeaseManager Ttl
  jobId : String
  leaseId : String

/-- The results of the calls of a manager. -/
inductive QueueLeaseReply (Ttl : Type)
  /-- `acquired: true`. -/
  | acquired (handle : QueueLeaseHandle Ttl)
  /-- `acquired: false`. -/
  | alreadyLeased
  /-- `ok: true`. -/
  | ok
  /-- `ok: false`. -/
  | failed (reason : QueueLeaseRefusal)
  | thrown (e : RuntimeError)

section Managers

variable {Ttl : Type} (deadline : Instant → Ttl → Option Instant)

/-- **`QueueLeaseManager.acquire`**. -/
def QueueLeaseManager.acquire (manager : QueueLeaseManager Ttl) (store : InMemoryQueueLeaseStore)
    (jobId leaseId : String) (now : Instant) : QueueLeaseReply Ttl × InMemoryQueueLeaseStore :=
  match store.acquire deadline jobId manager.ownerId leaseId manager.ttlMs now with
  | (.error e, store) => (.thrown e, store)
  | (.ok (.alreadyLeased _), store) => (.alreadyLeased, store)
  | (.ok (.acquired _), store) => (.acquired { manager, jobId, leaseId }, store)

/-- **`heartbeat`** of a handle. -/
def QueueLeaseHandle.heartbeat (handle : QueueLeaseHandle Ttl) (store : InMemoryQueueLeaseStore)
    (now : Instant) : QueueLeaseReply Ttl × InMemoryQueueLeaseStore :=
  match store.heartbeat deadline handle.jobId handle.manager.ownerId handle.leaseId
      handle.manager.ttlMs now with
  | (.error e, store) => (.thrown e, store)
  | (.ok (.refused reason _), store) => (.failed reason, store)
  | (.ok (.renewed _), store) => (.ok, store)

/-- **`release`** of a handle. -/
def QueueLeaseHandle.release (handle : QueueLeaseHandle Ttl) (store : InMemoryQueueLeaseStore) :
    QueueLeaseReply Ttl × InMemoryQueueLeaseStore :=
  match store.release handle.jobId handle.manager.ownerId handle.leaseId with
  | (.refused reason _, store) => (.failed reason, store)
  | (.released, store) => (.ok, store)

end Managers

/-- The job has no lease, or its lease has run out. -/
def InMemoryQueueLeaseStore.Free (store : InMemoryQueueLeaseStore) (jobId : String)
    (now : Instant) : Prop :=
  ∀ current, store.leases.get? jobId = some current → current.expiresAtIso ≤ now

/-- The lease is the one that the handle was given for. -/
def QueueLeaseHandle.Names {Ttl : Type} (handle : QueueLeaseHandle Ttl) (lease : QueueLease) : Prop :=
  lease.ownerId = handle.manager.ownerId ∧ lease.leaseId = handle.leaseId

instance {Ttl : Type} (handle : QueueLeaseHandle Ttl) (lease : QueueLease) :
    Decidable (handle.Names lease) :=
  inferInstanceAs (Decidable (_ ∧ _))

/-! ### What a call can do -/

section Steps

variable {Ttl : Type} (deadline : Instant → Ttl → Option Instant) (store : InMemoryQueueLeaseStore)

/-- **Acquisitions**: refused while a lease runs, and granted otherwise unless the deadline is no
date. -/
theorem QueueLeaseManager.acquire_cases (manager : QueueLeaseManager Ttl) (jobId leaseId : String)
    (now : Instant) :
    (∃ current, store.leases.get? jobId = some current ∧ now < current.expiresAtIso ∧
        manager.acquire deadline store jobId leaseId now = (.alreadyLeased, store)) ∨
    (store.Free jobId now ∧ deadline now manager.ttlMs = none ∧
        manager.acquire deadline store jobId leaseId now = (.thrown invalidTimeValue, store)) ∨
    (store.Free jobId now ∧ ∃ expiresAtIso, deadline now manager.ttlMs = some expiresAtIso ∧
        manager.acquire deadline store jobId leaseId now =
          (.acquired { manager, jobId, leaseId },
            { leases := store.leases.set jobId
                { jobId, leaseId, ownerId := manager.ownerId, acquiredAtIso := now,
                  heartbeatAtIso := now, expiresAtIso } })) := by
  unfold QueueLeaseManager.acquire InMemoryQueueLeaseStore.acquire
  cases hget : store.leases.get? jobId with
  | none =>
    have hfree : store.Free jobId now := by
      intro current hcurrent
      rw [hget] at hcurrent
      cases hcurrent
    cases hdeadline : deadline now manager.ttlMs with
    | none => exact Or.inr (Or.inl ⟨hfree, rfl, rfl⟩)
    | some expiresAtIso => exact Or.inr (Or.inr ⟨hfree, expiresAtIso, rfl, rfl⟩)
  | some current =>
    by_cases hheld : current.expiresAtIso > now
    · refine Or.inl ⟨current, rfl, hheld, ?_⟩
      simp only [if_pos hheld]
    · have hfree : store.Free jobId now := by
        intro other hother
        rw [hget] at hother
        obtain rfl := Option.some.inj hother
        exact Int.not_lt.mp hheld
      simp only [if_neg hheld]
      cases hdeadline : deadline now manager.ttlMs with
      | none => exact Or.inr (Or.inl ⟨hfree, rfl, rfl⟩)
      | some expiresAtIso => exact Or.inr (Or.inr ⟨hfree, expiresAtIso, rfl, rfl⟩)

/-- **Heartbeats**: refused unless the lease is the handle's own, which is then renewed unless the
deadline is no date. -/
theorem QueueLeaseHandle.heartbeat_cases (handle : QueueLeaseHandle Ttl) (now : Instant) :
    ((∀ current, store.leases.get? handle.jobId = some current → ¬ handle.Names current) ∧
      ∃ reason, handle.heartbeat deadline store now = (.failed reason, store)) ∨
    ∃ current, store.leases.get? handle.jobId = some current ∧ handle.Names current ∧
      (deadline now handle.manager.ttlMs = none ∧
          handle.heartbeat deadline store now = (.thrown invalidTimeValue, store) ∨
        ∃ expiresAtIso, deadline now handle.manager.ttlMs = some expiresAtIso ∧
          handle.heartbeat deadline store now =
            (.ok,
              { leases := store.leases.set handle.jobId
                  { current with heartbeatAtIso := now, expiresAtIso } })) := by
  unfold QueueLeaseHandle.heartbeat InMemoryQueueLeaseStore.heartbeat
  cases hget : store.leases.get? handle.jobId with
  | none => exact Or.inl ⟨by simp, .missingLease, rfl⟩
  | some current =>
    by_cases hnames : handle.Names current
    · refine Or.inr ⟨current, rfl, hnames, ?_⟩
      have hsame : ¬ (current.ownerId ≠ handle.manager.ownerId ∨ current.leaseId ≠ handle.leaseId) :=
        not_or.mpr ⟨not_not.mpr hnames.1, not_not.mpr hnames.2⟩
      simp only [if_neg hsame, InMemoryQueueLeaseStore.extendLease]
      cases hdeadline : deadline now handle.manager.ttlMs with
      | none => exact Or.inl ⟨rfl, rfl⟩
      | some expiresAtIso => exact Or.inr ⟨expiresAtIso, rfl, rfl⟩
    · have hother : current.ownerId ≠ handle.manager.ownerId ∨ current.leaseId ≠ handle.leaseId :=
        not_and_or.mp hnames
      simp only [if_pos hother]
      refine Or.inl ⟨?_, .leaseOwnerMismatch, rfl⟩
      rintro other ⟨⟩
      exact hnames

/-- **Releases**: refused unless the lease is the handle's own, which then goes. -/
theorem QueueLeaseHandle.release_cases (handle : QueueLeaseHandle Ttl) :
    ((∀ current, store.leases.get? handle.jobId = some current → ¬ handle.Names current) ∧
      ∃ reason, handle.release store = (.failed reason, store)) ∨
    ∃ current, store.leases.get? handle.jobId = some current ∧ handle.Names current ∧
      handle.release store = (.ok, { leases := store.leases.erase handle.jobId }) := by
  unfold QueueLeaseHandle.release InMemoryQueueLeaseStore.release
  cases hget : store.leases.get? handle.jobId with
  | none => exact Or.inl ⟨by simp, .missingLease, rfl⟩
  | some current =>
    by_cases hnames : handle.Names current
    · have hsame : ¬ (current.ownerId ≠ handle.manager.ownerId ∨ current.leaseId ≠ handle.leaseId) :=
        not_or.mpr ⟨not_not.mpr hnames.1, not_not.mpr hnames.2⟩
      refine Or.inr ⟨current, rfl, hnames, ?_⟩
      simp only [if_neg hsame]
    · have hother : current.ownerId ≠ handle.manager.ownerId ∨ current.leaseId ≠ handle.leaseId :=
        not_and_or.mp hnames
      simp only [if_pos hother]
      refine Or.inl ⟨?_, .leaseOwnerMismatch, rfl⟩
      rintro other ⟨⟩
      exact hnames

end Steps

/-! ### Runs -/

/-- A call of a worker, with the reading of its clock. -/
inductive QueueLeaseCall (Ttl : Type)
  | acquire (manager : QueueLeaseManager Ttl) (jobId leaseId : String) (now : Instant)
  | heartbeat (handle : QueueLeaseHandle Ttl) (now : Instant)
  | release (handle : QueueLeaseHandle Ttl)

namespace QueueLeaseCall

variable {Ttl : Type}

/-- The reading of the clock; a release does not look at it. -/
def now? : QueueLeaseCall Ttl → Option Instant
  | acquire _ _ _ now | heartbeat _ now => some now
  | release _ => none

end QueueLeaseCall

namespace InMemoryQueueLeaseStore

variable {Ttl : Type} (deadline : Instant → Ttl → Option Instant)

/-- One call. -/
def call (store : InMemoryQueueLeaseStore) :
    QueueLeaseCall Ttl → QueueLeaseReply Ttl × InMemoryQueueLeaseStore
  | .acquire manager jobId leaseId now => manager.acquire deadline store jobId leaseId now
  | .heartbeat handle now => handle.heartbeat deadline store now
  | .release handle => handle.release store

/-- The store after calls, one after the other. -/
def after (store : InMemoryQueueLeaseStore) : List (QueueLeaseCall Ttl) → InMemoryQueueLeaseStore
  | [] => store
  | call :: calls => (store.call deadline call).2.after calls

/-- The lease id that a reply grants. -/
def grantedId : QueueLeaseReply Ttl → Option String
  | .acquired handle => some handle.leaseId
  | _ => none

/-- The lease ids that calls are granted, in order. -/
def granted (store : InMemoryQueueLeaseStore) : List (QueueLeaseCall Ttl) → List String
  | [] => []
  | call :: calls =>
    (grantedId (store.call deadline call).1).toList ++ (store.call deadline call).2.granted calls

variable {deadline} {store : InMemoryQueueLeaseStore}

theorem after_append (calls later : List (QueueLeaseCall Ttl)) :
    store.after deadline (calls ++ later) = (store.after deadline calls).after deadline later := by
  induction calls generalizing store with
  | nil => rfl
  | cons call calls ih => exact ih

theorem granted_append (calls later : List (QueueLeaseCall Ttl)) :
    store.granted deadline (calls ++ later) =
      store.granted deadline calls ++ (store.after deadline calls).granted deadline later := by
  induction calls generalizing store with
  | nil => rfl
  | cons call calls ih =>
    rw [List.cons_append, granted, granted, after, ih, List.append_assoc]

/-- **What a call does to the lease of a job**: it keeps it, or it is a call for that job which is
granted, renews it or lets it go. -/
theorem call_lease (call : QueueLeaseCall Ttl) (jobId : String) :
    (store.call deadline call).2.leases.get? jobId = store.leases.get? jobId ∨
    (∃ manager leaseId now expiresAtIso, call = .acquire manager jobId leaseId now ∧
      store.Free jobId now ∧ deadline now manager.ttlMs = some expiresAtIso ∧
      grantedId (store.call deadline call).1 = some leaseId ∧
      (store.call deadline call).2.leases.get? jobId =
        some { jobId, leaseId, ownerId := manager.ownerId, acquiredAtIso := now,
               heartbeatAtIso := now, expiresAtIso }) ∨
    (∃ handle now current expiresAtIso, call = .heartbeat handle now ∧ handle.jobId = jobId ∧
      store.leases.get? jobId = some current ∧ handle.Names current ∧
      deadline now handle.manager.ttlMs = some expiresAtIso ∧
      (store.call deadline call).2.leases.get? jobId =
        some { current with heartbeatAtIso := now, expiresAtIso }) ∨
    (∃ handle current, call = .release handle ∧ handle.jobId = jobId ∧
      store.leases.get? jobId = some current ∧ handle.Names current ∧
      (store.call deadline call).2.leases.get? jobId = none) := by
  cases call with
  | acquire manager job leaseId now =>
    rw [InMemoryQueueLeaseStore.call]
    rcases manager.acquire_cases deadline store job leaseId now with
      ⟨_, _, _, heq⟩ | ⟨_, _, heq⟩ | ⟨hfree, expiresAtIso, hdeadline, heq⟩
    · exact Or.inl (by rw [heq])
    · exact Or.inl (by rw [heq])
    · by_cases hjob : jobId = job
      · subst hjob
        refine Or.inr (Or.inl ⟨manager, leaseId, now, expiresAtIso, rfl, hfree, hdeadline, ?_, ?_⟩)
        · rw [heq]
          rfl
        · rw [heq]
          exact Dict.get?_set_self _ _ _
      · refine Or.inl ?_
        rw [heq]
        exact Dict.get?_set_of_ne hjob _ _
  | heartbeat handle now =>
    rw [InMemoryQueueLeaseStore.call]
    rcases handle.heartbeat_cases deadline store now with
      ⟨_, _, heq⟩ | ⟨current, hget, hnames, ⟨_, heq⟩ | ⟨expiresAtIso, hdeadline, heq⟩⟩
    · exact Or.inl (by rw [heq])
    · exact Or.inl (by rw [heq])
    · by_cases hjob : jobId = handle.jobId
      · subst hjob
        refine Or.inr (Or.inr (Or.inl
          ⟨handle, now, current, expiresAtIso, rfl, rfl, hget, hnames, hdeadline, ?_⟩))
        rw [heq]
        exact Dict.get?_set_self _ _ _
      · refine Or.inl ?_
        rw [heq]
        exact Dict.get?_set_of_ne hjob _ _
  | release handle =>
    rw [InMemoryQueueLeaseStore.call]
    rcases handle.release_cases store with ⟨_, _, heq⟩ | ⟨current, hget, hnames, heq⟩
    · exact Or.inl (by rw [heq])
    · by_cases hjob : jobId = handle.jobId
      · subst hjob
        refine Or.inr (Or.inr (Or.inr ⟨handle, current, rfl, rfl, hget, hnames, ?_⟩))
        rw [heq]
        exact (Dict.get?_erase _ _ _).trans (if_pos rfl)
      · refine Or.inl ?_
        rw [heq]
        exact (Dict.get?_erase _ _ _).trans (if_neg hjob)

end InMemoryQueueLeaseStore

end AiOrchestrator
