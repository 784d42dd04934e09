import AiOrchestrator.State.QueueLeases

/-!
# Queue leases are held, run out and are lost

`queueLeases_correct` is the law of the leases of a queue over every run of its workers. It rests on two
run lemmas: a job whose lease has another id gets an id back only by an acquisition that is granted
(`leaseId_ne_after`), and a lease whose heartbeats arrive in time stays where it is (`held_after`).
-/

namespace AiOrchestrator

namespace InMemoryQueueLeaseStore

variable {Ttl : Type} {deadline : Instant → Ttl → Option Instant} {store : InMemoryQueueLeaseStore}

/-! ### Old handles -/

/-- A job whose lease has another id gets that id only by an acquisition. -/
theorem leaseId_ne_after {calls : List (QueueLeaseCall Ttl)} {jobId leaseId : String}
    (hgranted : leaseId ∉ store.granted deadline calls)
    (h : ∀ lease, store.leases.get? jobId = some lease → lease.leaseId ≠ leaseId) :
    ∀ lease, (store.after deadline calls).leases.get? jobId = some lease → lease.leaseId ≠ leaseId := by
  induction calls generalizing store with
  | nil => exact h
  | cons call calls ih =>
    rw [granted, List.mem_append, not_or] at hgranted
    refine ih hgranted.2 fun lease hget => ?_
    rcases call_lease call jobId with hkept |
      ⟨manager, leaseId', now, expiresAtIso, -, -, -, hid, hnew⟩ |
      ⟨handle, now, current, expiresAtIso, -, -, hcurrent, -, -, hnew⟩ |
      ⟨handle, current, -, -, -, -, hnew⟩
    · rw [hkept] at hget
      exact h lease hget
    · rw [hnew] at hget
      obtain rfl := Option.some.inj hget
      rintro rfl
      exact hgranted.1 (by rw [hid]; exact List.mem_singleton_self _)
    · rw [hnew] at hget
      obtain rfl := Option.some.inj hget
      exact h current hcurrent
    · rw [hnew] at hget
      cases hget

/-- The calls of a handle whose lease is not there fail and change nothing. -/
theorem fails_of_ne {handle : QueueLeaseHandle Ttl}
    (h : ∀ lease, store.leases.get? handle.jobId = some lease → lease.leaseId ≠ handle.leaseId) :
    (∀ now, ∃ reason, handle.heartbeat deadline store now = (.failed reason, store)) ∧
      ∃ reason, handle.release store = (.failed reason, store) := by
  constructor
  · intro now
    rcases handle.heartbeat_cases deadline store now with ⟨-, hfailed⟩ | ⟨current, hget, hnames, -⟩
    · exact hfailed
    · exact absurd hnames.2 (h current hget)
  · rcases handle.release_cases store with ⟨-, hfailed⟩ | ⟨current, hget, hnames, -⟩
    · exact hfailed
    · exact absurd hnames.2 (h current hget)

/-! ### Holders -/

/-- Two handles of one lease. -/
def SameLease (handle other : QueueLeaseHandle Ttl) : Prop :=
  other.jobId = handle.jobId ∧ other.manager.ownerId = handle.manager.ownerId ∧
    other.leaseId = handle.leaseId

instance (handle other : QueueLeaseHandle Ttl) : Decidable (SameLease handle other) :=
  inferInstanceAs (Decidable (_ ∧ _ ∧ _))

variable (deadline) in
/-- **Heartbeats in time**: from a lease that runs up to `expires` on, each heartbeat of the handle
arrives before the expiry that the one before it has set, and so does the instant `moment`. -/
def InTime (handle : QueueLeaseHandle Ttl) (moment : Instant) :
    Instant → List (QueueLeaseCall Ttl) → Prop
  | expires, [] => moment < expires
  | expires, .heartbeat other now :: calls =>
    if SameLease handle other then
      now < expires ∧
        InTime handle moment ((deadline now other.manager.ttlMs).getD expires) calls
    else InTime handle moment expires calls
  | expires, .acquire _ _ _ _ :: calls | expires, .release _ :: calls =>
    InTime handle moment expires calls

/-- What happens before the next heartbeat happens before the expiry. -/
theorem InTime.lt {handle : QueueLeaseHandle Ttl} {moment expires now : Instant}
    {calls : List (QueueLeaseCall Ttl)} (h : InTime deadline handle moment expires calls)
    (hcalls : ∀ later ∈ calls.filterMap QueueLeaseCall.now?, now ≤ later) (hmoment : now ≤ moment) :
    now < expires := by
  induction calls with
  | nil => exact Int.lt_of_le_of_lt hmoment h
  | cons call calls ih =>
    cases call with
    | acquire manager jobId leaseId later =>
      exact ih h fun t ht => hcalls t (List.mem_cons_of_mem _ ht)
    | release other => exact ih h hcalls
    | heartbeat other later =>
      rw [InTime] at h
      have hlater : now ≤ later := hcalls later List.mem_cons_self
      split_ifs at h with hsame
      · exact Int.lt_of_le_of_lt hlater h.1
      · exact ih h fun t ht => hcalls t (List.mem_cons_of_mem _ ht)

/-- **A holder is not displaced** while its heartbeats arrive in time and it does not release. -/
theorem held_after {handle : QueueLeaseHandle Ttl} {moment : Instant} {current : QueueLease}
    {calls : List (QueueLeaseCall Ttl)} (hget : store.leases.get? handle.jobId = some current)
    (hnames : handle.Names current)
    (hclock : (calls.filterMap QueueLeaseCall.now?).Pairwise (· ≤ ·))
    (hmoment : ∀ now ∈ calls.filterMap QueueLeaseCall.now?, now ≤ moment)
    (hrelease : ∀ other, .release other ∈ calls → ¬ SameLease handle other)
    (h : InTime deadline handle moment current.expiresAtIso calls) :
    ∃ lease, (store.after deadline calls).leases.get? handle.jobId = some lease ∧
      handle.Names lease ∧ moment < lease.expiresAtIso := by
  induction calls generalizing store current with
  | nil => exact ⟨current, hget, hnames, h⟩
  | cons call calls ih =>
    have hrelease' : ∀ other, .release other ∈ calls → ¬ SameLease handle other :=
      fun other hmem => hrelease other (List.mem_cons_of_mem call hmem)
    have hkeeps : ∀ lease, (store.call deadline call).2.leases.get? handle.jobId = some lease →
        handle.Names lease → InTime deadline handle moment lease.expiresAtIso calls →
        ∃ lease, (store.after deadline (call :: calls)).leases.get? handle.jobId = some lease ∧
          handle.Names lease ∧ moment < lease.expiresAtIso := by
      intro lease hlease hlnames hin
      refine ih hlease hlnames ?_ ?_ hrelease' hin
      · exact hclock.sublist ((List.sublist_cons_self call calls).filterMap _)
      · intro now hnow
        exact hmoment now (((List.sublist_cons_self call calls).filterMap _).subset hnow)
    have hpresent : ∀ {lease}, store.leases.get? handle.jobId = some lease → lease = current :=
      fun hlease => Option.some.inj (hlease.symm.trans hget)
    cases call with
    | acquire manager jobId leaseId now =>
      have hafter : ∀ later ∈ calls.filterMap QueueLeaseCall.now?, now ≤ later :=
        (List.pairwise_cons.mp hclock).1
      have hin : InTime deadline handle moment current.expiresAtIso calls := h
      have hlt : now < current.expiresAtIso := hin.lt hafter (hmoment now List.mem_cons_self)
      rcases @call_lease _ deadline store
          (.acquire manager jobId leaseId now) handle.jobId with hkept |
        ⟨_, _, now', _, heq, hfree, -⟩ | ⟨_, _, _, _, heq, -⟩ | ⟨_, _, heq, -⟩
      · exact hkeeps current (hkept.trans hget) hnames h
      · obtain ⟨rfl, rfl, rfl, rfl⟩ := QueueLeaseCall.acquire.inj heq
        exact absurd (hfree current hget) (Int.not_le.mpr hlt)
      · cases heq
      · cases heq
    | heartbeat other now =>
      rw [InTime] at h
      rcases other.heartbeat_cases deadline store now with
        ⟨hnone, reason, heq⟩ | ⟨lease, hlease, hother, ⟨hdeadline, heq⟩ | ⟨expiresAtIso, hdeadline, heq⟩⟩
      · have hdiffer : ¬ SameLease handle other := by
          rintro ⟨hjob, howner, hid⟩
          rw [hjob] at hnone
          exact hnone current hget ⟨hnames.1.trans howner.symm, hnames.2.trans hid.symm⟩
        rw [if_neg hdiffer] at h
        refine hkeeps current ?_ hnames h
        rw [call, heq]
        exact hget
      · refine hkeeps current ?_ hnames ?_
        · rw [call, heq]
          exact hget
        · split_ifs at h with hsame
          · rw [hdeadline] at h
            exact h.2
          · exact h
      · by_cases hjob : other.jobId = handle.jobId
        · rw [hjob] at hlease heq
          obtain rfl := hpresent hlease
          have hsame : SameLease handle other :=
            ⟨hjob, hother.1.symm.trans hnames.1, hother.2.symm.trans hnames.2⟩
          rw [if_pos hsame, hdeadline] at h
          refine hkeeps { lease with heartbeatAtIso := now, expiresAtIso } ?_ hnames h.2
          rw [call, heq]
          exact Dict.get?_set_self _ _ _
        · have hdiffer : ¬ SameLease handle other := fun hsame => hjob hsame.1
          rw [if_neg hdiffer] at h
          refine hkeeps current ?_ hnames h
          rw [call, heq]
          exact (Dict.get?_set_of_ne (Ne.symm hjob) _ _).trans hget
    | release other =>
      rcases @call_lease _ deadline store (.release other)
          handle.jobId with hkept |
        ⟨_, _, _, _, heq, -⟩ | ⟨_, _, _, _, heq, -⟩ | ⟨_, lease, heq, hjob, hlease, hother, -⟩
      · exact hkeeps current (hkept.trans hget) hnames h
      · cases heq
      · cases heq
      · obtain rfl := QueueLeaseCall.release.inj heq
        obtain rfl := hpresent hlease
        exact absurd ⟨hjob, hother.1.symm.trans hnames.1, hother.2.symm.trans hnames.2⟩
          (hrelease other List.mem_cons_self)

end InMemoryQueueLeaseStore

open InMemoryQueueLeaseStore

/-! ### The law of the leases -/

variable {Ttl : Type} (deadline : Instant → Ttl → Option Instant)

/-- The acquisition succeeds. -/
def Acquires (store : InMemoryQueueLeaseStore) (manager : QueueLeaseManager Ttl)
    (jobId leaseId : String) (now : Instant) : Prop :=
  (manager.acquire deadline store jobId leaseId now).1 = .acquired { manager, jobId, leaseId }

/-- The acquisition succeeds exactly if the job has no lease or its lease has run out. -/
def AcquiresWhenFree (store : InMemoryQueueLeaseStore) (manager : QueueLeaseManager Ttl)
    (jobId leaseId : String) (now : Instant) : Prop :=
  Acquires deadline store manager jobId leaseId now ↔ store.Free jobId now

/-- The calls of the handle fail and change nothing. -/
def Fails (store : InMemoryQueueLeaseStore) (handle : QueueLeaseHandle Ttl) : Prop :=
  (∀ now, ∃ reason, handle.heartbeat deadline store now = (.failed reason, store)) ∧
    ∃ reason, handle.release store = (.failed reason, store)

variable {deadline}

theorem acquiresWhenFree_of_date {store : InMemoryQueueLeaseStore} {manager : QueueLeaseManager Ttl}
    {jobId leaseId : String} {now expiresAtIso : Instant}
    (hdate : deadline now manager.ttlMs = some expiresAtIso) :
    AcquiresWhenFree deadline store manager jobId leaseId now := by
  unfold AcquiresWhenFree Acquires
  rcases manager.acquire_cases deadline store jobId leaseId now with
    ⟨current, hget, hrunning, heq⟩ | ⟨-, hnone, -⟩ | ⟨hfree, _, -, heq⟩
  · rw [heq]
    constructor
    · intro h
      cases h
    · intro hfree
      exact absurd hrunning (Int.not_lt.mpr (hfree current hget))
  · rw [hdate] at hnone
    cases hnone
  · rw [heq]
    exact iff_of_true rfl hfree

/-- Without a date nothing is granted, and nothing changes. -/
theorem not_acquires_of_none {store : InMemoryQueueLeaseStore} {manager : QueueLeaseManager Ttl}
    {jobId leaseId : String} {now : Instant} (hnone : deadline now manager.ttlMs = none) :
    ¬ Acquires deadline store manager jobId leaseId now ∧
      (manager.acquire deadline store jobId leaseId now).2 = store := by
  unfold Acquires
  rcases manager.acquire_cases deadline store jobId leaseId now with
    ⟨_, _, _, heq⟩ | ⟨-, -, heq⟩ | ⟨-, _, hdate, -⟩
  · rw [heq]
    exact ⟨fun h => (by cases h), rfl⟩
  · rw [heq]
    exact ⟨fun h => (by cases h), rfl⟩
  · rw [hnone] at hdate
    cases hdate

/-- What a granted acquisition leaves behind. -/
theorem Acquires.stored {store : InMemoryQueueLeaseStore} {manager : QueueLeaseManager Ttl}
    {jobId leaseId : String} {now : Instant} (h : Acquires deadline store manager jobId leaseId now) :
    ∃ expiresAtIso, deadline now manager.ttlMs = some expiresAtIso ∧
      grantedId (store.call deadline (.acquire manager jobId leaseId now)).1 = some leaseId ∧
      (store.call deadline (.acquire manager jobId leaseId now)).2.leases.get? jobId =
        some { jobId, leaseId, ownerId := manager.ownerId, acquiredAtIso := now,
               heartbeatAtIso := now, expiresAtIso } := by
  unfold Acquires at h
  rw [call]
  rcases manager.acquire_cases deadline store jobId leaseId now with
    ⟨_, _, _, heq⟩ | ⟨-, -, heq⟩ | ⟨-, expiresAtIso, hdate, heq⟩
  · rw [heq] at h
    cases h
  · rw [heq] at h
    cases h
  · refine ⟨expiresAtIso, hdate, ?_, ?_⟩
    · rw [heq]
      rfl
    · rw [heq]
      exact Dict.get?_set_self _ _ _

variable (deadline)

/-- **Queue leases.** In every run with distinct lease ids in which the clocks do not go back: an
acquisition succeeds exactly if the job has no lease or its lease has run out, unless its deadline is no
date, when it is not granted and changes nothing; a holder whose heartbeats arrive in time keeps its
lease until it releases it; and once another lease of the job has been acquired, the calls of an earlier
one fail and change nothing. -/
theorem queueLeases_correct {calls : List (QueueLeaseCall Ttl)}
    (hclock : (calls.filterMap QueueLeaseCall.now?).Pairwise (· ≤ ·))
    (hids : (granted deadline {} calls).Nodup) :
    (∀ before manager jobId leaseId now later,
      calls = before ++ .acquire manager jobId leaseId now :: later →
        ((deadline now manager.ttlMs).isSome = true →
          AcquiresWhenFree deadline (after deadline {} before) manager jobId leaseId now) ∧
        (deadline now manager.ttlMs = none →
          ¬ Acquires deadline (after deadline {} before) manager jobId leaseId now ∧
            (manager.acquire deadline (after deadline {} before) jobId leaseId now).2 =
              after deadline {} before)) ∧
    (∀ before manager jobId leaseId now later rest,
      calls = before ++ .acquire manager jobId leaseId now :: later ++ rest →
      Acquires deadline (after deadline {} before) manager jobId leaseId now →
      (∀ other, .release other ∈ later → ¬ SameLease { manager, jobId, leaseId } other) →
      ∀ moment, (∀ t ∈ later.filterMap QueueLeaseCall.now?, t ≤ moment) →
        (∀ expiresAtIso, deadline now manager.ttlMs = some expiresAtIso →
          InTime deadline { manager, jobId, leaseId } moment expiresAtIso later) →
        ∃ lease, (after deadline {} (before ++ .acquire manager jobId leaseId now :: later)).leases.get?
            jobId = some lease ∧
          lease.ownerId = manager.ownerId ∧ lease.leaseId = leaseId ∧ moment < lease.expiresAtIso) ∧
    ∀ before manager jobId leaseId now between manager' leaseId' now' later rest,
      calls = before ++ .acquire manager jobId leaseId now ::
        (between ++ .acquire manager' jobId leaseId' now' :: later) ++ rest →
      Acquires deadline (after deadline {} before) manager jobId leaseId now →
      Acquires deadline (after deadline {} (before ++ .acquire manager jobId leaseId now :: between))
        manager' jobId leaseId' now' →
      ∀ handle : QueueLeaseHandle Ttl, handle.jobId = jobId → handle.leaseId = leaseId →
        Fails deadline
          (after deadline {} (before ++ .acquire manager jobId leaseId now ::
            (between ++ .acquire manager' jobId leaseId' now' :: later))) handle := by
  refine ⟨?_, ?_, ?_⟩
  · intro before manager jobId leaseId now later _
    refine ⟨fun hdate => ?_, not_acquires_of_none⟩
    obtain ⟨expiresAtIso, hdate⟩ := Option.isSome_iff_exists.mp hdate
    exact acquiresWhenFree_of_date hdate
  · intro before manager jobId leaseId now later rest hcalls hacquires hrelease moment hmoment hin
    obtain ⟨expiresAtIso, hdate, -, hstored⟩ := hacquires.stored
    rw [hcalls, List.append_assoc, List.filterMap_append] at hclock
    have hrest := (List.pairwise_append.mp hclock).2.1
    rw [List.cons_append, List.filterMap_cons, List.filterMap_append] at hrest
    have hlater : (later.filterMap QueueLeaseCall.now?).Pairwise (· ≤ ·) :=
      (List.pairwise_append.mp (List.pairwise_cons.mp hrest).2).1
    rw [after_append, after]
    obtain ⟨lease, hget, hnames, hlt⟩ := @held_after _ deadline _
      { manager, jobId, leaseId } _ _ _ hstored ⟨rfl, rfl⟩ hlater hmoment hrelease (hin expiresAtIso hdate)
    exact ⟨lease, hget, hnames.1, hnames.2, hlt⟩
  · intro before manager jobId leaseId now between manager' leaseId' now' later rest hcalls hacquires
      hacquires' handle hjob hid
    obtain ⟨-, -, hgranted, -⟩ := hacquires.stored
    rw [after_append, after] at hacquires'
    obtain ⟨expiresAtIso, -, hgranted', hstored⟩ := hacquires'.stored
    rw [hcalls, granted_append, granted_append, granted, hgranted, granted_append, granted,
      hgranted'] at hids
    -- the ids granted behind the first acquisition are others
    have hfresh := (List.nodup_append.mp (List.nodup_append.mp hids).1).2.1
    rw [Option.toList_some, List.singleton_append, List.nodup_cons, List.mem_append, not_or,
      List.mem_append, not_or, Option.toList_some, List.mem_singleton] at hfresh
    obtain ⟨⟨-, hother, hlater⟩, -⟩ := hfresh
    rw [after_append, after, after_append, after]
    refine fails_of_ne ?_
    rw [hjob, hid]
    refine leaseId_ne_after hlater ?_
    intro lease hlease
    rw [hstored] at hlease
    obtain rfl := Option.some.inj hlease
    exact Ne.symm hother

/-! ### Two workers -/

/-- The deadline of a time to live in whole milliseconds: the largest date is `8.64e15`. -/
def dateDeadline (now : Instant) (ttlMs : ℤ) : Option Instant :=
  if (now + ttlMs).natAbs ≤ 8640000000000000 then some (now + ttlMs) else none

def workerA : QueueLeaseManager ℤ := { ownerId := "worker-a", ttlMs := 1000 }

def workerB : QueueLeaseManager ℤ := { ownerId := "worker-b", ttlMs := 1000 }

/-- A lease that is renewed once, refused to another worker, and taken over after it has run out. -/
def takeover : List (QueueLeaseCall ℤ) :=
  [.acquire workerA "job-1" "lease-1" 1767225600000,
    .heartbeat { manager := workerA, jobId := "job-1", leaseId := "lease-1" } 1767225600600,
    .acquire workerB "job-1" "lease-2" 1767225601200,
    .acquire workerB "job-1" "lease-3" 1767225601600]

/-- The first worker learns that its lease is gone. -/
theorem queueLeases_correct_takeover :
    Fails dateDeadline (after dateDeadline {} takeover)
      { manager := workerA, jobId := "job-1", leaseId := "lease-1" } := by
  have hclock : (takeover.filterMap QueueLeaseCall.now?).Pairwise (· ≤ ·) := by decide
  have hids : (granted dateDeadline {} takeover).Nodup := by decide
  obtain ⟨-, -, hstale⟩ := queueLeases_correct dateDeadline hclock hids
  exact hstale [] workerA "job-1" "lease-1" 1767225600000 [takeover[1], takeover[2]] workerB "lease-3"
    1767225601600 [] [] rfl rfl rfl _ rfl rfl

/-- **A free job that is not leased**: a time to live beyond all dates makes `toISOString` throw. -/
theorem free_not_acquired :
    ¬ AcquiresWhenFree dateDeadline (after dateDeadline {} [])
      { ownerId := "worker-a", ttlMs := 8640000000000000 } "job-1" "lease-1" 1767225600000 := by
  intro h
  have hfree : (after dateDeadline {} []).Free "job-1" 1767225600000 := by
    intro current hcurrent
    cases hcurrent
  have hacquired := h.mpr hfree
  cases hacquired

end AiOrchestrator
