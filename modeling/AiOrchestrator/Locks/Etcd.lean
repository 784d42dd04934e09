import AiOrchestrator.Locks.Contention

/-!
# The etcd lock store

`EtcdDistributedLockStore` (`packages/execution/src/locks/distributed-lock-store-factory.ts`) for
the key of one resource. Each request is atomic; a write answers the new revision of the store.
The key is bound to a lease of etcd and may be removed with it at any moment: this lease lives
whole seconds, the deadline in the record counts milliseconds. A request that fails may have been
executed all the same.

An acquisition writes twice: first a provisional lease with the token 0, which succeeds only if
there is no key, then the lease with the revision of that write as its token, unconditionally.
-/

namespace AiOrchestrator

namespace Etcd

open Contention hiding query

inductive Request
  /-- `put(…).value(…)`, with `prevNoExist` or without. -/
  | put (lease : DistributedLockLease) (prevNoExist : Bool)
  /-- `get(…).string()`. -/
  | getString
  /-- `get(…).exec()`: the revision of the key. -/
  | getExec
  | delete

def Request.Res : Request → Type
  | put _ _ => Nat
  | getString => Option DistributedLockLease
  | getExec => Option Nat
  | delete => Unit

/-- The requests that read the record. -/
def Request.reads : Request → Bool
  | getString => true
  | put _ _ | getExec | delete => false

/-- What a call throws. -/
inductive EtcdError
  /-- A request failed, or its condition did not hold. -/
  | request
  /-- The `ConfigError` of a response without a revision. -/
  | noRevision
  /-- The `RangeError` of a deadline that is no date. -/
  | range
deriving DecidableEq

structure Key where
  lease : Option DistributedLockLease
  revision : Nat

section Semantics

variable {ι : Type}

def execute : (o : Request) → Key → Except EtcdError o.Res × Key
  | .put lease prevNoExist, key =>
    if prevNoExist && key.lease.isSome then (.error .request, key)
    else (.ok (key.revision + 1), { lease := some lease, revision := key.revision + 1 })
  | .getString, key => (.ok key.lease, key)
  | .getExec, key => (.ok (key.lease.map fun _ => key.revision), key)
  | .delete, key => (.ok (), { lease := none, revision := key.revision + 1 })

/-- etcd as a service. -/
def service : Service ι Request Request.Res EtcdError Key where
  query _ fate o key :=
    match fate with
    | .answered => some (execute o key)
    | .refused => some (.error .request, key)
    | .lost => some (.error .request, (execute o key).2)
  expire key := some { lease := none, revision := key.revision + 1 }
  stored := Key.lease
  version := Key.revision
  reads := Request.reads

end Semantics

section Calls

variable {Ttl : Type} (deadline : Instant → Ttl → Option Instant)

abbrev Call := Contention.Call Request Request.Res EtcdError

def query (o : Request) : Call o.Res := Contention.query o

/-- **`acquire`**. Whatever makes the first write fail counts as a lock held by another. -/
def acquire (resource ownerId : String) (nowIso : Instant) (ttlMs : Ttl) : Call LockReply :=
  match deadline nowIso ttlMs with
  | none => throw .range
  | some expiresAtIso => do
    let provisionalLease := asLease resource ownerId nowIso expiresAtIso 0
    let putResult : Except EtcdError Nat ← Act.attempt (query (.put provisionalLease true))
    match putResult with
    | .error _ => pure (.refused .alreadyLocked (some provisionalLease))
    | .ok token => do
      let lease := asLease resource ownerId nowIso expiresAtIso token
      let _ : Nat ← query (.put lease false)
      pure (.granted lease)

/-- **`readEtcdLeaseRecord`**. The two reads are two requests; the lease is that of the first. -/
def readEtcdLeaseRecord : Call (Option DistributedLockLease) := do
  let raw : Option DistributedLockLease ← query .getString
  match raw with
  | none => pure none
  | some lease => do
    let revision : Option Nat ← query .getExec
    match revision with
    | none => throw .noRevision
    | some _ => pure (some lease)

/-- **`renew`**. -/
def renew (ownerId : String) (fencingToken : Nat) (nowIso : Instant) (ttlMs : Ttl) :
    Call LockReply := do
  let leaseRecord ← readEtcdLeaseRecord
  match leaseRecord with
  | none => pure (.refused .missingLock none)
  | some lease =>
    match validateLease lease ownerId fencingToken nowIso, deadline nowIso ttlMs with
    | .error reason, _ => pure (.refused reason (some lease))
    | .ok (), none => throw .range
    | .ok (), some expiresAtIso => do
      let renewedLease := renewLease lease expiresAtIso
      let _ : Nat ← query (.put renewedLease false)
      pure (.granted renewedLease)

/-- **`validate`**. -/
def validate (ownerId : String) (fencingToken : Nat) (nowIso : Instant) : Call LockReply := do
  let leaseRecord ← readEtcdLeaseRecord
  match leaseRecord with
  | none => pure (.refused .missingLock none)
  | some lease =>
    match validateLease lease ownerId fencingToken nowIso with
    | .error reason => pure (.refused reason (some lease))
    | .ok () => pure (.granted lease)

/-- **`release`**. It validates at the current time and then deletes whatever is stored. -/
def release (ownerId : String) (fencingToken : Nat) (nowIso : Instant) : Call LockReply := do
  let v ← validate ownerId fencingToken nowIso
  match v with
  | .granted _ => do
    query .delete
    pure .released
  | refused => pure refused

/-- A call, with the time at which it begins. -/
def call (resource : String) (request : LockRequest Ttl) : Call LockReply := do
  let nowIso : Instant ← clock
  match request with
  | .acquire ownerId ttlMs => acquire deadline resource ownerId nowIso ttlMs
  | .renew ownerId fencingToken ttlMs => renew deadline ownerId fencingToken nowIso ttlMs
  | .release ownerId fencingToken => release ownerId fencingToken nowIso
  | .validate ownerId fencingToken => validate ownerId fencingToken nowIso

/-- The calls `requests` before their first request, on the key `lease`. -/
def start {ι : Type} (resource : String) (requests : ι → LockRequest Ttl)
    (lease : Option DistributedLockLease) (now : Instant) (revision : Nat) :
    Pool ι (Op Request) (fun o => Except EtcdError (o.Res Request.Res))
      (Except EtcdError LockReply) (Shared ι Key) where
  threads i := (call deadline resource (requests i)).run
  state := .start { lease, revision } now

end Calls

section Safety

variable {ι Ttl : Type} [DecidableEq ι] {requests : ι → LockRequest Ttl} {i : ι} {key : Key}
  {s : Shared ι Key} {deadline : Instant → Ttl → Option Instant}

/-- The service promises nothing about the key. -/
def Keep (_ : ι) (_ _ : Key) : Prop := True

abbrev CallSafe {α : Type} (requests : ι → LockRequest Ttl) (i : ι) (m : Call α)
    (Q : Except EtcdError α → Shared ι Key → Prop) (s : Shared ι Key) : Prop :=
  Act.Safe ((service.server requests).eff i) (Rely service Keep i) (Guar service Keep requests i) m
    Q s

omit [DecidableEq ι] in
/-- A request with an answer is executed. -/
theorem execute_of_ok {c : Fate} {o : Request} {x : o.Res} {key' : Key}
    (h : (service (ι := ι)).query i c o key = some (.ok x, key')) : execute o key = (.ok x, key') := by
  cases c with
  | answered => exact Option.some.inj h
  | refused | lost => cases h

omit [DecidableEq ι] in
/-- A request without an answer may be executed or not. -/
theorem query_cases {c : Fate} {o : Request} {x : Except EtcdError o.Res} {key' : Key}
    (h : (service (ι := ι)).query i c o key = some (x, key')) :
    key' = key ∨ ∃ y, execute o key = (y, key') := by
  cases c with
  | answered => exact Or.inr ⟨x, Option.some.inj h⟩
  | refused => exact Or.inl (Prod.mk.inj (Option.some.inj h)).2.symm
  | lost => exact Or.inr ⟨(execute o key).1, Prod.ext rfl (Prod.mk.inj (Option.some.inj h)).2⟩

/-- The effect of a write of the call `i` that it may make where `h` says so. -/
theorem guar_write {o : Request} {c : Fate} {x : Except EtcdError o.Res} {key' : Key}
    (_ : service.query i c o s.db = some (x, key'))
    (h : s.overtaken i = false →
      Respects service (requests i) i s (s.track service (requests i) i o.reads key')) :
    Guar service Keep requests i s (s.track service (requests i) i o.reads key') :=
  Guar.track _ (fun _ _ => trivial) h

/-- The last write of a call. -/
theorem safe_write {P : Shared ι Key → Prop} {o : Request} {reply : LockReply} (hs : P s)
    (hstable : ∀ s t, P s → Rely service Keep i s t → P t)
    (hrespects : ∀ (s : Shared ι Key) c x key', P s → service.query i c o s.db = some (x, key') →
      s.overtaken i = false →
      Respects service (requests i) i s (s.track service (requests i) i o.reads key'))
    (hreports : ∀ (s : Shared ι Key) x key', execute o s.db = (.ok x, key') →
      Reports (ε := EtcdError) requests i (.ok reply)
        (s.track service (requests i) i o.reads key')) :
    CallSafe requests i (query o >>= fun _ => pure reply) (Reports requests i) s := by
  refine safe_query_bind hs hstable ?_ ?_
  · intro t c x db ht h
    exact ⟨guar_write h (hrespects t c (.ok x) db ht h), hreports t x db (execute_of_ok h)⟩
  · exact fun t c e db ht h => ⟨guar_write h (hrespects t c (.error e) db ht h), Reports.of_error⟩

/-- A write on the strength of a pair that the call has seen. -/
theorem safe_own {o : Request} {reply : LockReply} {token : Nat}
    (htoken : (requests i).fencingToken = some token)
    (hwrites : ∀ key x key' lease, execute o key = (x, key') → key'.lease = some lease →
      lease.pair = ((requests i).ownerId, token))
    (hs : Sees service i (fun p _ => p = ((requests i).ownerId, token)) s) :
    CallSafe requests i (query o >>= fun _ => pure reply) (Reports requests i) s := by
  refine safe_write hs (fun _ _ => Sees.stable) ?_ fun _ _ _ _ => Reports.of_token htoken
  intro t c x key' ht h hfree
  refine Respects.of_own service htoken (ht hfree) fun lease hstored => ?_
  rw [track_db] at hstored
  rcases query_cases h with rfl | ⟨y, hexec⟩
  · exact Or.inl hstored
  · exact Or.inr (hwrites t.db y key' lease hexec hstored)

/-- A put that requires that there is no key. -/
theorem respects_putNew {lease : DistributedLockLease} {c : Fate} {x : Except EtcdError Nat}
    {key' : Key} {ownerId : String} {ttlMs : Ttl}
    (h : service.query i c (.put lease true) s.db = some (x, key')) :
    Respects service (.acquire ownerId ttlMs) i s
      (s.track service (.acquire ownerId ttlMs) i false key') := by
  rcases query_cases h with rfl | ⟨y, hexec⟩
  · exact Respects.of_same service (by rw [track_db])
  · simp only [execute, Bool.true_and] at hexec
    split at hexec
    · obtain ⟨-, rfl⟩ := Prod.mk.inj hexec
      exact Respects.of_same service (by rw [track_db])
    · rename_i hnone
      refine Respects.of_acquire service fun stored hstored => ?_
      have hsome : s.db.lease.isSome = true := by rw [show s.db.lease = some stored from hstored]; rfl
      exact absurd hsome hnone

theorem acquire_safe {resource ownerId : String} {nowIso : Instant} {ttlMs : Ttl}
    (hrequest : requests i = .acquire ownerId ttlMs) :
    CallSafe requests i (acquire deadline resource ownerId nowIso ttlMs) (Reports requests i) s := by
  unfold acquire
  split
  · exact Reports.of_error
  · refine safe_attempt_bind (P := fun _ => True) trivial (fun _ _ _ _ => trivial) ?_
    rintro t c x db - h
    refine ⟨guar_write h fun _ => ?_, ?_⟩
    · rw [hrequest]
      exact respects_putNew h
    · cases x with
      | error e => exact Reports.of_refused
      | ok token =>
        have hexec := execute_of_ok h
        simp only [execute, Bool.true_and] at hexec
        split at hexec
        · cases hexec
        · rename_i hnone
          have hfree : t.db.lease = none := by simpa using hnone
          obtain ⟨-, rfl⟩ := Prod.mk.inj hexec
          -- between its two writes the call knows its provisional lease
          refine safe_write (P := Sees service i fun p putBy => p = (ownerId, 0) ∧ putBy = some i)
            (sees_track_put _ rfl hfree ⟨rfl, rfl⟩) (fun _ _ => Sees.stable) ?_ ?_
          · intro u c' x' key' hu _ hfree'
            rw [hrequest]
            refine Respects.of_acquire service fun lease hstored => Or.inr ?_
            obtain ⟨hpair, hput⟩ := hu hfree' lease hstored
            exact ⟨congrArg Prod.fst hpair, hput⟩
          · intro u x' key' hexec' lease hacquires hreply
            obtain ⟨-, rfl⟩ := Prod.mk.inj hexec'
            cases hreply
            refine put_track _ hacquires rfl fun hsame => ?_
            exact absurd (congrArg Prod.snd hsame) (Nat.succ_ne_self u.db.revision)

/-- The requests that write nothing. -/
def Request.Quiet : Request → Bool
  | getString | getExec => true
  | put _ _ | delete => false

theorem guar_read {o : Request} (hquiet : o.Quiet = true) {c : Fate} {x : Except EtcdError o.Res}
    {key' : Key} (h : service.query i c o s.db = some (x, key')) :
    Guar service Keep requests i s (s.track service (requests i) i o.reads key') := by
  have hsame : key' = s.db := by
    rcases query_cases h with rfl | ⟨y, hexec⟩
    · rfl
    · cases o with
      | getString | getExec => exact (Prod.mk.inj hexec).2.symm
      | put _ _ | delete => cases hquiet
  subst hsame
  exact Guar.quiet _ (fun _ _ => trivial) rfl

/-- **What the two reads tell**: the lease of the first one. -/
theorem read_safe :
    CallSafe requests i readEtcdLeaseRecord
      (fun r t => ∀ lease, r = .ok (some lease) → Sees service i (fun p _ => p = lease.pair) t)
      s := by
  refine safe_query_bind (P := fun _ => True) trivial (fun _ _ _ _ => trivial) ?_ ?_
  · rintro t c x db - h
    obtain ⟨hx, rfl⟩ := Prod.mk.inj (execute_of_ok h)
    obtain rfl := Except.ok.inj hx
    refine ⟨Guar.quiet _ (fun _ _ => trivial) rfl, ?_⟩
    cases hlease : t.db.lease with
    | none =>
      intro lease hr
      cases hr
    | some lease =>
      have hsees : Sees service i (fun p _ => p = lease.pair)
          (t.track service (requests i) i true t.db) := by
        refine sees_track_read fun lease' _ hstored => ?_
        have heq : some lease = some lease' := hlease.symm.trans hstored
        rw [Option.some.inj heq]
      refine safe_query_bind hsees (fun _ _ => Sees.stable) ?_ ?_
      · intro u c' x' db' hu h'
        obtain ⟨-, rfl⟩ := Prod.mk.inj (execute_of_ok h')
        refine ⟨Guar.quiet _ (fun _ _ => trivial) rfl, ?_⟩
        cases x' with
        | none =>
          intro lease' hr
          cases hr
        | some revision =>
          intro lease' hr
          cases hr
          exact hu.track_same rfl
      · exact fun u c' e db' hu h' => ⟨guar_read rfl h', fun lease' hr => by cases hr⟩
  · exact fun t c e db _ h => ⟨guar_read rfl h, fun lease hr => by cases hr⟩

theorem renew_safe {ownerId : String} {fencingToken : Nat} {nowIso : Instant} {ttlMs : Ttl}
    (hrequest : requests i = .renew ownerId fencingToken ttlMs) :
    CallSafe requests i (renew deadline ownerId fencingToken nowIso ttlMs) (Reports requests i) s := by
  unfold CallSafe renew
  rw [Act.safe_bind]
  refine Act.Safe.mono read_safe fun r t hr => ?_
  have htoken : (requests i).fencingToken = some fencingToken := by rw [hrequest]; rfl
  cases r with
  | error e => exact Reports.of_error
  | ok leaseRecord =>
    cases leaseRecord with
    | none => exact Reports.of_refused
    | some lease =>
      show CallSafe requests i _ _ t
      dsimp only
      split
      · exact Reports.of_refused
      · exact Reports.of_error
      · rename_i hvalid _
        obtain ⟨-, howner, hvalidToken⟩ := validateLease_ok_iff.mp hvalid
        have hpair : lease.pair = ((requests i).ownerId, fencingToken) := by
          rw [hrequest]
          exact Prod.ext howner hvalidToken
        refine safe_own htoken ?_ ?_
        · intro key x key' lease' hexec hstored
          obtain ⟨-, rfl⟩ := Prod.mk.inj hexec
          cases hstored
          exact hpair
        · rw [← hpair]
          exact hr lease rfl

/-- A successful validation knows its pair. -/
theorem validate_safe {ownerId : String} {fencingToken : Nat} {nowIso : Instant} :
    CallSafe requests i (validate ownerId fencingToken nowIso)
      (fun r t => ∀ lease, r = .ok (.granted lease) →
        Sees service i (fun p _ => p = (ownerId, fencingToken)) t) s := by
  unfold CallSafe validate
  rw [Act.safe_bind]
  refine Act.Safe.mono read_safe fun r t hr => ?_
  cases r with
  | error e => exact fun lease h => by cases h
  | ok leaseRecord =>
    cases leaseRecord with
    | none => exact fun lease h => by cases h
    | some lease =>
      show CallSafe requests i _ _ t
      dsimp only
      split
      · exact fun lease h => by cases h
      · rename_i hvalid
        obtain ⟨-, howner, htoken⟩ := validateLease_ok_iff.mp hvalid
        have hpair : lease.pair = (ownerId, fencingToken) := Prod.ext howner htoken
        intro lease' h
        cases h
        rw [← hpair]
        exact hr lease rfl

theorem release_safe {ownerId : String} {fencingToken : Nat} {nowIso : Instant}
    (hrequest : requests i = .release ownerId fencingToken) :
    CallSafe requests i (release ownerId fencingToken nowIso) (Reports requests i) s := by
  have htoken : (requests i).fencingToken = some fencingToken := by rw [hrequest]; rfl
  unfold CallSafe release
  rw [Act.safe_bind]
  refine Act.Safe.mono validate_safe fun r t hr => ?_
  cases r with
  | error e => exact Reports.of_error
  | ok v =>
    cases v with
    | granted lease =>
      refine safe_own htoken ?_ ?_
      · intro key x key' lease' hexec hstored
        obtain ⟨-, rfl⟩ := Prod.mk.inj hexec
        cases hstored
      · have hsees := hr lease rfl
        rw [hrequest]
        exact hsees
    | released => exact Reports.of_token htoken
    | refused reason lease => exact Reports.of_token htoken
    | rangeError => exact Reports.of_token htoken

/-- **Every call is safe**, whatever the others do. -/
theorem call_safe (resource : String) (i : ι) (s : Shared ι Key) :
    CallSafe requests i (call deadline resource (requests i)) (Reports requests i) s := by
  refine safe_clock_bind (fun _ _ => trivial) fun t => ?_
  cases hrequest : requests i with
  | acquire ownerId ttlMs => exact acquire_safe hrequest
  | renew ownerId fencingToken ttlMs => exact renew_safe hrequest
  | release ownerId fencingToken => exact release_safe hrequest
  | validate ownerId fencingToken =>
    exact Act.Safe.mono validate_safe fun _ _ _ => Reports.of_token (by rw [hrequest]; rfl)

theorem start_safe (resource : String) (lease : Option DistributedLockLease) (now : Instant)
    (revision : Nat) :
    SafeCalls service Keep requests (start deadline resource requests lease now revision) :=
  fun i => call_safe resource i _

end Safety

end Etcd

end AiOrchestrator
