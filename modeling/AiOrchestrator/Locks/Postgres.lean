import AiOrchestrator.Locks.Contention

/-!
# The PostgreSQL lock store

`PostgresDistributedLockStore` (`packages/execution/src/locks/distributed-lock-store-factory.ts`)
for the row of one resource, under READ COMMITTED. Each call has a connection of its own. A
statement sees what is committed; `SELECT … FOR UPDATE` locks the row if there is one, until the
transaction of the call ends, and locks nothing if there is none; an `INSERT … ON CONFLICT`
locks the key. A statement that needs a lock held by another transaction waits. Outside a
transaction a statement commits at once. A statement that fails may have been executed all the
same.
-/

namespace AiOrchestrator

namespace Postgres

open Contention hiding query

/-- The statements on the row. -/
inductive Statement
  | begin
  /-- `ensurePgSchema`. -/
  | ensureSchema
  /-- `SELECT … FOR UPDATE`. -/
  | selectForUpdate
  | select
  /-- `SELECT nextval(…)`. -/
  | nextval
  /-- `INSERT … ON CONFLICT(resource) DO UPDATE`. -/
  | upsert (lease : DistributedLockLease)
  | update (lease : DistributedLockLease)
  | delete
  | commit
  | rollback

def Statement.Res : Statement → Type
  | selectForUpdate | select => Option DistributedLockLease
  | nextval => Nat
  | begin | ensureSchema | upsert _ | update _ | delete | commit | rollback => Unit

/-- The statements that read the row. -/
def Statement.reads : Statement → Bool
  | selectForUpdate | select => true
  | begin | ensureSchema | nextval | upsert _ | update _ | delete | commit | rollback => false

/-- What a call throws. -/
inductive PgError
  /-- A statement failed. -/
  | query
  /-- The `RangeError` of a deadline that is no date. -/
  | range
deriving DecidableEq

/-- The row of the resource: what is committed, which transaction holds the lock, what that
transaction has written, and how often the row was written. -/
structure Row (ι : Type) where
  lease : Option DistributedLockLease
  lock : Option ι
  pending : Option DistributedLockLease
  sequence : Nat
  version : Nat

section Semantics

variable {ι : Type} [DecidableEq ι]

/-- The lock is free for the call `i`. -/
def Row.available (row : Row ι) (i : ι) : Bool := row.lock = none || row.lock = some i

/-- The end of the transaction of the call `i`, which has written `pending`. -/
def Row.endTransaction (row : Row ι) (i : ι) (pending : Option DistributedLockLease) : Row ι :=
  if row.lock = some i then
    match pending with
    | none => { row with lock := none, pending := none }
    | some lease =>
      { row with lease := some lease, lock := none, pending := none, version := row.version + 1 }
  else row

def execute (i : ι) :
    (o : Statement) → Row ι → Option (Except PgError o.Res × Row ι)
  | .begin, row | .ensureSchema, row => some (.ok (), row)
  | .selectForUpdate, row =>
    match row.lease with
    | none => some (.ok none, row)
    | some lease =>
      if row.available i then some (.ok (some lease), { row with lock := some i }) else none
  | .select, row => some (.ok row.lease, row)
  | .nextval, row => some (.ok (row.sequence + 1), { row with sequence := row.sequence + 1 })
  | .upsert lease, row =>
    if row.available i then some (.ok (), { row with lock := some i, pending := some lease })
    else none
  | .update lease, row =>
    match row.lease with
    | none => some (.ok (), row)
    | some _ =>
      if row.available i then some (.ok (), { row with lock := some i, pending := some lease })
      else none
  | .delete, row =>
    match row.lease with
    | none => some (.ok (), row)
    | some _ =>
      if row.available i then
        some (.ok (), { row with lease := none, version := row.version + 1 })
      else none
  | .commit, row => some (.ok (), row.endTransaction i row.pending)
  | .rollback, row => some (.ok (), row.endTransaction i none)

/-- PostgreSQL as a service. It knows nothing of deadlines. -/
def service : Service ι Statement Statement.Res PgError (Row ι) where
  query i fate o row :=
    match fate with
    | .answered => execute i o row
    | .refused => some (.error .query, row)
    | .lost => (execute i o row).map fun (_, row) => (.error .query, row)
  expire _ := none
  stored := Row.lease
  version := Row.version
  reads := Statement.reads

end Semantics

section Calls

variable {Ttl : Type} (deadline : Instant → Ttl → Option Instant)

abbrev Call := Contention.Call Statement Statement.Res PgError

def query (o : Statement) : Call o.Res := Contention.query o

/-- Run a transaction; a failure rolls it back and is thrown on. -/
def rollingBack (m : Call LockReply) : Call LockReply :=
  Act.catching m fun error => do
    Act.ignoring (query .rollback)
    throw error

/-- The end of `acquire`, once it has found no lease or an expired one. -/
def insertLease (resource ownerId : String) (nowIso : Instant) (ttlMs : Ttl) : Call LockReply := do
  let token : Nat ← query .nextval
  match deadline nowIso ttlMs with
  | none => throw .range
  | some expiresAtIso => do
    let lease := asLease resource ownerId nowIso expiresAtIso token
    query (.upsert lease)
    query .commit
    pure (.granted lease)

/-- **`acquire`**. -/
def acquire (resource ownerId : String) (nowIso : Instant) (ttlMs : Ttl) : Call LockReply :=
  rollingBack do
    query .begin
    query .ensureSchema
    let lock : Option DistributedLockLease ← query .selectForUpdate
    match lock with
    | none => insertLease deadline resource ownerId nowIso ttlMs
    | some lease =>
      if lease.expiresAtIso > nowIso then do
        query .rollback
        pure (.refused .alreadyLocked (some lease))
      else insertLease deadline resource ownerId nowIso ttlMs

/-- **`renew`**. -/
def renew (ownerId : String) (fencingToken : Nat) (nowIso : Instant) (ttlMs : Ttl) :
    Call LockReply :=
  rollingBack do
    query .begin
    query .ensureSchema
    let row : Option DistributedLockLease ← query .selectForUpdate
    match row with
    | none => do
      query .rollback
      pure (.refused .missingLock none)
    | some lease =>
      match validateLease lease ownerId fencingToken nowIso, deadline nowIso ttlMs with
      | .error reason, _ => do
        query .rollback
        pure (.refused reason (some lease))
      | .ok (), none => throw .range
      | .ok (), some expiresAtIso => do
        let renewedLease := renewLease lease expiresAtIso
        query (.update renewedLease)
        query .commit
        pure (.granted renewedLease)

/-- **`release`**, without a transaction. -/
def release (ownerId : String) (fencingToken : Nat) : Call LockReply := do
  query .ensureSchema
  let row : Option DistributedLockLease ← query .select
  match row with
  | none => pure (.refused .missingLock none)
  | some lease =>
    if lease.ownerId ≠ ownerId then pure (.refused .ownerMismatch (some lease))
    else if lease.fencingToken ≠ fencingToken then
      pure (.refused .staleFencingToken (some lease))
    else do
      query .delete
      pure .released

/-- **`validate`**. -/
def validate (ownerId : String) (fencingToken : Nat) (nowIso : Instant) : Call LockReply := do
  query .ensureSchema
  let row : Option DistributedLockLease ← query .select
  match row with
  | none => pure (.refused .missingLock none)
  | some lease =>
    match validateLease lease ownerId fencingToken nowIso with
    | .error reason => pure (.refused reason (some lease))
    | .ok () => pure (.granted lease)

/-- A call, with the time at which it begins. -/
def call (resource : String) (request : LockRequest Ttl) : Call LockReply := do
  let nowIso : Instant ← clock
  match request with
  | .acquire ownerId ttlMs => acquire deadline resource ownerId nowIso ttlMs
  | .renew ownerId fencingToken ttlMs => renew deadline ownerId fencingToken nowIso ttlMs
  | .release ownerId fencingToken => release ownerId fencingToken
  | .validate ownerId fencingToken => validate ownerId fencingToken nowIso

/-- The calls `requests` before their first statement, on the committed row `lease`. -/
def start {ι : Type} (resource : String) (requests : ι → LockRequest Ttl)
    (lease : Option DistributedLockLease) (now : Instant) (sequence : Nat) :
    Pool ι (Op Statement) (fun o => Except PgError (o.Res Statement.Res))
      (Except PgError LockReply) (Shared ι (Row ι)) where
  threads i := (call deadline resource (requests i)).run
  state := .start { lease, lock := none, pending := none, sequence, version := 0 } now

end Calls

/-! ### Locks -/

section Safety

variable {ι Ttl : Type} [DecidableEq ι] {requests : ι → LockRequest Ttl} {i j : ι}
  {row row' : Row ι} {s t : Shared ι (Row ι)}

/-- Whoever holds the lock of the row can rely on the row. -/
def Keep (j : ι) (row row' : Row ι) : Prop :=
  row.lock = some j → row'.lock = some j ∧ row'.lease = row.lease ∧ row'.pending = row.pending

omit [DecidableEq ι] in
theorem Keep.refl (j : ι) (row : Row ι) : Keep j row row := fun h => ⟨h, rfl, rfl⟩

theorem not_available (hij : i ≠ j) (hlock : row.lock = some j) : row.available i = false := by
  simp [Row.available, hlock, Ne.symm hij]

theorem endTransaction_keep (hij : i ≠ j) (row : Row ι) (pending : Option DistributedLockLease) :
    Keep j row (row.endTransaction i pending) := by
  intro hlock
  unfold Row.endTransaction
  rw [if_neg (by simp [hlock, Ne.symm hij])]
  exact ⟨hlock, rfl, rfl⟩

/-- **Locks are respected**: a statement of another call leaves a locked row alone. -/
theorem execute_keep (hij : i ≠ j) {o : Statement} {x : Except PgError o.Res}
    (h : execute i o row = some (x, row')) : Keep j row row' := by
  intro hlock
  have hwaits := not_available hij hlock
  cases o with
  | begin | ensureSchema | select | nextval =>
    cases h
    exact ⟨hlock, rfl, rfl⟩
  | selectForUpdate | update _ | delete =>
    cases hlease : row.lease with
    | none =>
      simp only [execute, hlease] at h
      cases h
      exact ⟨hlock, hlease, rfl⟩
    | some lease => simp [execute, hlease, hwaits] at h
  | upsert lease => simp [execute, hwaits] at h
  | commit | rollback =>
    cases h
    exact endTransaction_keep hij row _ hlock

/-- After a deletion there is no row. -/
theorem execute_delete {x : Except PgError Unit} (h : execute i .delete row = some (x, row')) :
    row'.lease = none := by
  cases hlease : row.lease with
  | none =>
    simp only [execute, hlease] at h
    cases h
    exact hlease
  | some lease =>
    simp only [execute, hlease] at h
    split at h
    · cases h
      rfl
    · cases h

/-- The statements that do not change the committed row. -/
def Statement.Quiet : Statement → Prop
  | delete | commit => False
  | begin | ensureSchema | selectForUpdate | select | nextval | upsert _ | update _ | rollback =>
    True

theorem execute_quiet {o : Statement} (hquiet : o.Quiet) {x : Except PgError o.Res}
    (h : execute i o row = some (x, row')) : row'.lease = row.lease ∧ row'.version = row.version := by
  cases o with
  | delete | commit => cases hquiet
  | begin | ensureSchema | select | nextval =>
    cases h
    exact ⟨rfl, rfl⟩
  | selectForUpdate | update _ =>
    cases hlease : row.lease with
    | none =>
      simp only [execute, hlease] at h
      cases h
      exact ⟨hlease, rfl⟩
    | some lease =>
      simp only [execute, hlease] at h
      split at h
      · cases h
        exact ⟨rfl, rfl⟩
      · cases h
  | upsert lease =>
    simp only [execute] at h
    split at h
    · cases h
      exact ⟨rfl, rfl⟩
    · cases h
  | rollback =>
    cases h
    unfold Row.endTransaction
    split <;> exact ⟨rfl, rfl⟩

/-- A statement with an answer is executed. -/
theorem execute_of_ok {c : Fate} {o : Statement} {x : o.Res}
    (h : service.query i c o row = some (.ok x, row')) : execute i o row = some (.ok x, row') := by
  cases c with
  | answered => exact h
  | refused => cases h
  | lost =>
    obtain ⟨_, -, hx⟩ := Option.map_eq_some_iff.mp h
    cases hx

/-- A statement without an answer may be executed or not. -/
theorem query_cases {c : Fate} {o : Statement} {x : Except PgError o.Res}
    (h : service.query i c o row = some (x, row')) :
    row' = row ∨ ∃ y, execute i o row = some (y, row') := by
  cases c with
  | answered => exact Or.inr ⟨x, h⟩
  | refused => exact Or.inl (Prod.mk.inj (Option.some.inj h)).2.symm
  | lost =>
    obtain ⟨⟨y, row''⟩, hexec, heq⟩ := Option.map_eq_some_iff.mp h
    obtain ⟨-, rfl⟩ := Prod.mk.inj heq
    exact Or.inr ⟨y, hexec⟩

theorem query_keep {c : Fate} {o : Statement} {x : Except PgError o.Res}
    (h : service.query i c o row = some (x, row')) (j : ι) (hij : i ≠ j) :
    Keep j row row' := by
  rcases query_cases h with rfl | ⟨y, h⟩
  · exact Keep.refl j row'
  · exact execute_keep hij h

theorem query_quiet {c : Fate} {o : Statement} (hquiet : o.Quiet) {x : Except PgError o.Res}
    (h : service.query i c o row = some (x, row')) :
    service.record row' = service.record (ι := ι) row := by
  rcases query_cases h with rfl | ⟨y, h⟩
  · rfl
  · obtain ⟨hlease, hversion⟩ := execute_quiet hquiet h
    exact Prod.ext hlease hversion

/-! ### The calls -/

/-- Safety of a part of a call. -/
abbrev CallSafe (requests : ι → LockRequest Ttl) (i : ι) (m : Call LockReply)
    (s : Shared ι (Row ι)) : Prop :=
  Act.Safe ((service.server requests).eff i) (Rely service Keep i) (Guar service Keep requests i) m
    (Reports requests i) s

/-- The rule for a statement that leaves the committed row alone. -/
theorem safe_quiet {P : Shared ι (Row ι) → Prop} {o : Statement} (hquiet : o.Quiet)
    {f : o.Res → Call LockReply} (hs : P s) (hstable : ∀ s t, P s → Rely service Keep i s t → P t)
    (hok : ∀ t x db, P t → execute i o t.db = some (.ok x, db) →
      CallSafe requests i (f x) (t.track service (requests i) i o.reads db)) :
    CallSafe requests i (query o >>= f) s := by
  refine safe_query_bind hs hstable ?_ ?_
  · intro t c x db ht h
    exact ⟨Guar.quiet _ (query_keep h) (query_quiet hquiet h), hok t x db ht (execute_of_ok h)⟩
  · intro t c e db ht h
    exact ⟨Guar.quiet _ (query_keep h) (query_quiet hquiet h), Reports.of_error⟩

/-- The last query of a call. -/
theorem safe_last {P : Shared ι (Row ι) → Prop} {o : Statement} {reply : LockReply}
    (hs : P s) (hstable : ∀ s t, P s → Rely service Keep i s t → P t)
    (hguar : ∀ t c x db, P t → service.query i c o t.db = some (x, db) →
      Guar service Keep requests i t (t.track service (requests i) i o.reads db))
    (hreports : ∀ t x db, P t → execute i o t.db = some (.ok x, db) →
      Reports (ε := PgError) requests i (.ok reply)
        (t.track service (requests i) i o.reads db)) :
    CallSafe requests i (query o >>= fun _ => pure reply) s := by
  refine safe_query_bind hs hstable ?_ ?_
  · intro t c x db ht h
    exact ⟨hguar t c (.ok x) db ht h, hreports t x db ht (execute_of_ok h)⟩
  · exact fun t c e db ht h => ⟨hguar t c (.error e) db ht h, Reports.of_error⟩

theorem guar_quiet {o : Statement} (hquiet : o.Quiet) {c : Fate} {x : Except PgError o.Res}
    (h : service.query i c o s.db = some (x, row')) :
    Guar service Keep requests i s (s.track service (requests i) i o.reads row') :=
  Guar.quiet _ (query_keep h) (query_quiet hquiet h)

theorem safe_rollback (reason : LockRefusal) (lease : Option DistributedLockLease)
    (s : Shared ι (Row ι)) :
    CallSafe requests i (query .rollback >>= fun _ => pure (.refused reason lease)) s :=
  safe_last (P := fun _ => True) trivial (fun _ _ _ _ => trivial)
    (fun _ _ _ _ _ h => guar_quiet (o := .rollback) trivial h) fun _ _ _ _ _ => Reports.of_refused

/-- A failed transaction is rolled back, which disturbs nobody. -/
theorem safe_rollingBack {m : Call LockReply} (h : CallSafe requests i m s) :
    CallSafe requests i (rollingBack m) s := by
  unfold CallSafe rollingBack
  rw [Act.safe_catching]
  refine Act.Safe.mono h ?_
  intro r t hr
  cases r with
  | ok reply => exact hr
  | error e =>
    show CallSafe requests i (Act.ignoring (query .rollback) >>= fun _ => throw e) t
    unfold CallSafe
    rw [Act.safe_bind, Act.safe_ignoring]
    refine Act.safe_ask (P := fun _ => True) trivial (fun _ _ _ _ => trivial) ?_
    intro u x v _ he
    obtain ⟨c, db, hquery, rfl⟩ := eff_query he
    exact ⟨guar_quiet (o := .rollback) trivial hquery, Reports.of_error⟩

/-- The call `i` may put a lease: it has seen none, or it holds the lock of an expired one. -/
def Free (i : ι) (s : Shared ι (Row ι)) : Prop :=
  Sees service i (fun _ _ => False) s ∨
    s.db.lock = some i ∧ ∀ lease, s.db.lease = some lease → lease.expiresAtIso ≤ s.now

theorem Free.stable (s t : Shared ι (Row ι)) (hs : Free i s) (h : Rely service Keep i s t) :
    Free i t := by
  rcases hs with hsees | ⟨hlock, hexpired⟩
  · exact Or.inl (hsees.stable h)
  · obtain ⟨hlock', hlease, -⟩ := h.keep hlock
    refine Or.inr ⟨hlock', fun lease hstored => ?_⟩
    exact Int.le_trans (hexpired lease (hlease.symm.trans hstored)) h.now

/-- A quiet statement of the call itself that leaves it the lock. -/
theorem Free.track (hs : Free i s) {request : LockRequest Ttl} {db : Row ι}
    (hsame : db.lease = s.db.lease ∧ db.version = s.db.version)
    (hlock : s.db.lock = some i → db.lock = some i) :
    Free i (s.track service request i false db) := by
  rcases hs with hsees | ⟨hheld, hexpired⟩
  · exact Or.inl (hsees.track_same (Prod.ext hsame.1 hsame.2))
  · refine Or.inr ⟨?_, ?_⟩
    · rw [track_db]
      exact hlock hheld
    · intro lease hstored
      rw [track_db, hsame.1] at hstored
      rw [track_now]
      exact hexpired lease hstored

/-- The call `i` holds the lock and has written a lease that is not yet committed. -/
def Staged (i : ι) (lease : DistributedLockLease) (s : Shared ι (Row ι)) : Prop :=
  s.db.lock = some i ∧ s.db.pending = some lease

theorem Staged.stable {lease : DistributedLockLease} (s t : Shared ι (Row ι))
    (hs : Staged i lease s) (h : Rely service Keep i s t) : Staged i lease t := by
  obtain ⟨hlock, hpending⟩ := hs
  obtain ⟨hlock', -, hpending'⟩ := h.keep hlock
  exact ⟨hlock', hpending'.trans hpending⟩

/-- The commit of a lease. -/
theorem execute_commit {lease : DistributedLockLease} {s : Shared ι (Row ι)} (hs : Staged i lease s)
    {x : Except PgError Unit} {db : Row ι} (h : execute i .commit s.db = some (x, db)) :
    db.lease = some lease ∧ db.version = s.db.version + 1 := by
  obtain ⟨-, rfl⟩ := Prod.mk.inj (Option.some.inj h)
  unfold Row.endTransaction
  rw [if_pos hs.1, hs.2]
  exact ⟨rfl, rfl⟩

/-- The call `i` holds the lock of a lease with the pair `p`. -/
def Locked (i : ι) (p : String × Nat) (s : Shared ι (Row ι)) : Prop :=
  s.db.lock = some i ∧ ∃ lease, s.db.lease = some lease ∧ lease.pair = p

theorem Locked.stable {p : String × Nat} (s t : Shared ι (Row ι)) (hs : Locked i p s)
    (h : Rely service Keep i s t) : Locked i p t := by
  obtain ⟨hlock, lease, hstored, hpair⟩ := hs
  obtain ⟨hlock', hlease, -⟩ := h.keep hlock
  exact ⟨hlock', lease, hlease.trans hstored, hpair⟩

variable {deadline : Instant → Ttl → Option Instant}

/-- Statements that need no assertion. -/
theorem safe_plain {o : Statement} (hquiet : o.Quiet) {f : o.Res → Call LockReply}
    {nowIso : Instant} (hs : nowIso ≤ s.now)
    (hok : ∀ t x, nowIso ≤ t.now → CallSafe requests i (f x) t) :
    CallSafe requests i (query o >>= f) s := by
  refine safe_quiet (P := fun s => nowIso ≤ s.now) hquiet hs ?_ ?_
  · exact fun s t hs h => Int.le_trans hs h.now
  · intro t x db ht _
    refine hok _ x ?_
    rwa [track_now]

/-- What `SELECT … FOR UPDATE` tells its call. -/
theorem execute_selectForUpdate {x : Option DistributedLockLease}
    (h : execute i .selectForUpdate row = some (.ok x, row')) :
    x = row.lease ∧ row'.lease = row.lease ∧ (row.lease = none ∨ row'.lock = some i) := by
  cases hlease : row.lease with
  | none =>
    simp only [execute, hlease] at h
    cases h
    exact ⟨rfl, hlease, Or.inl rfl⟩
  | some lease =>
    simp only [execute, hlease] at h
    split at h
    · cases h
      exact ⟨rfl, rfl, Or.inr rfl⟩
    · cases h

/-- A written row is kept with its lock until the end of the transaction. -/
theorem execute_upsert {lease : DistributedLockLease} {x : Except PgError Unit}
    (h : execute i (.upsert lease) row = some (x, row')) :
    row'.lock = some i ∧ row'.pending = some lease := by
  simp only [execute] at h
  split at h
  · cases h
    exact ⟨rfl, rfl⟩
  · cases h

theorem execute_update {lease stored : DistributedLockLease} (hstored : row.lease = some stored)
    {x : Except PgError Unit} (h : execute i (.update lease) row = some (x, row')) :
    row'.lock = some i ∧ row'.pending = some lease := by
  simp only [execute, hstored] at h
  split at h
  · cases h
    exact ⟨rfl, rfl⟩
  · cases h

theorem insertLease_safe {resource ownerId : String} {nowIso : Instant} {ttlMs : Ttl}
    (hrequest : requests i = .acquire ownerId ttlMs) (hs : Free i s) :
    CallSafe requests i (insertLease deadline resource ownerId nowIso ttlMs) s := by
  refine safe_quiet (o := .nextval) trivial hs Free.stable ?_
  rintro t token db ht hnextval
  have hfree : Free i (t.track service (requests i) i false db) := by
    cases hnextval
    exact ht.track ⟨rfl, rfl⟩ id
  split
  · exact Reports.of_error
  · rename_i expiresAtIso _
    refine safe_quiet (o := .upsert _) trivial hfree Free.stable ?_
    rintro u _ db' hu hupsert
    have hsame := execute_quiet (o := .upsert _) trivial hupsert
    have hstaged := execute_upsert hupsert
    refine safe_last (o := .commit)
      (P := fun s => Free i s ∧ Staged i (asLease resource ownerId nowIso expiresAtIso token) s)
      ⟨hu.track hsame fun _ => hstaged.1, ?_⟩
      (fun s t hs h => ⟨hs.1.stable s t h, hs.2.stable s t h⟩) ?_ ?_
    · unfold Staged
      rw [track_db]
      exact hstaged
    · rintro v c x db'' ⟨hv, -⟩ h
      refine Guar.track _ (query_keep h) fun hfree' => ?_
      rw [hrequest]
      refine Respects.of_acquire service fun lease hstored => Or.inl ?_
      rcases hv with hsees | ⟨-, hexpired⟩
      · exact (hsees hfree' lease hstored).elim
      · exact hexpired lease hstored
    · rintro v x db'' ⟨-, hv⟩ hcommit lease hacquires hreply
      obtain ⟨hlease, hversion⟩ := execute_commit hv hcommit
      cases hreply
      refine put_track _ hacquires hlease fun hrecord => ?_
      exact absurd (hversion.symm.trans (congrArg Prod.snd hrecord)) (Nat.succ_ne_self _)

theorem acquire_safe {resource ownerId : String} {nowIso : Instant} {ttlMs : Ttl}
    (hrequest : requests i = .acquire ownerId ttlMs) (hs : nowIso ≤ s.now) :
    CallSafe requests i (acquire deadline resource ownerId nowIso ttlMs) s := by
  refine safe_rollingBack ?_
  refine safe_plain (o := .begin) trivial hs fun t _ ht => ?_
  refine safe_plain (o := .ensureSchema) trivial ht fun u _ hu => ?_
  refine safe_quiet (P := fun s => nowIso ≤ s.now) (o := .selectForUpdate) trivial hu
    (fun s t hs h => Int.le_trans hs h.now) ?_
  intro v x db hv hselect
  obtain ⟨rfl, hsame, hlock⟩ := execute_selectForUpdate hselect
  cases hlease : v.db.lease with
  | none =>
    refine insertLease_safe hrequest (Or.inl (sees_track_read fun lease _ hstored => ?_))
    have hnone : db.lease = none := hsame.trans hlease
    exact absurd hstored (by simp [service, hnone])
  | some lease =>
    dsimp only
    split
    · exact safe_rollback _ _ _
    · rename_i hexpired
      rw [hlease] at hlock
      refine insertLease_safe hrequest (Or.inr ⟨?_, ?_⟩)
      · rw [track_db]
        exact hlock.resolve_left (by simp)
      · intro lease' hstored
        rw [track_db, hsame, hlease] at hstored
        obtain rfl := Option.some.inj hstored
        rw [track_now]
        exact Int.le_trans (Int.not_lt.mp hexpired) hv

theorem renew_safe {ownerId : String} {fencingToken : Nat} {nowIso : Instant} {ttlMs : Ttl}
    (hrequest : requests i = .renew ownerId fencingToken ttlMs) (hs : nowIso ≤ s.now) :
    CallSafe requests i (renew deadline ownerId fencingToken nowIso ttlMs) s := by
  refine safe_rollingBack ?_
  refine safe_plain (o := .begin) trivial hs fun t _ ht => ?_
  refine safe_plain (o := .ensureSchema) trivial ht fun u _ hu => ?_
  refine safe_quiet (P := fun _ => True) (o := .selectForUpdate) trivial trivial
    (fun _ _ _ _ => trivial) ?_
  intro v x db _ hselect
  obtain ⟨rfl, hsame, hlock⟩ := execute_selectForUpdate hselect
  cases hlease : v.db.lease with
  | none => exact safe_rollback _ _ _
  | some lease =>
    -- The row is locked and read: what validates here is what the update writes, since no other
    -- transaction writes the row before this one ends.
    dsimp only
    split
    · exact safe_rollback _ _ _
    · exact Reports.of_error
    · rename_i expiresAtIso hvalid _
      have hpair : lease.pair = (ownerId, fencingToken) := by
        obtain ⟨-, howner, htoken⟩ := validateLease_ok_iff.mp hvalid
        exact Prod.ext howner htoken
      rw [hlease] at hlock
      have hlocked : Locked i (ownerId, fencingToken) (v.track service (requests i) i true db) := by
        unfold Locked
        rw [track_db, hsame, hlease]
        exact ⟨hlock.resolve_left (by simp), lease, rfl, hpair⟩
      refine safe_quiet (o := .update _) trivial hlocked Locked.stable ?_
      rintro w _ db' ⟨hheld, current, hstored, hpair'⟩ hupdate
      have hsame' := execute_quiet (o := .update _) trivial hupdate
      have hstaged := execute_update hstored hupdate
      refine safe_last (o := .commit)
        (P := fun s => Locked i (ownerId, fencingToken) s ∧ Staged i (renewLease lease expiresAtIso) s)
        ?_ (fun s t hs h => ⟨hs.1.stable s t h, hs.2.stable s t h⟩) ?_ ?_
      · unfold Locked Staged
        rw [track_db, hsame'.1]
        exact ⟨⟨hstaged.1, current, hstored, hpair'⟩, hstaged⟩
      -- The commit: the stored lease was the caller's, and so is the one it leaves.
      · rintro y c x db'' ⟨⟨-, current', hstored', hown⟩, hy⟩ h
        refine Guar.track _ (query_keep h) fun _ => ?_
        rw [hrequest]
        refine Respects.of_own service rfl ?_ ?_
        · intro lease' hlease'
          rw [Option.some.inj (hlease'.symm.trans hstored')]
          exact hown
        · intro lease' hlease'
          rw [track_db] at hlease'
          rcases query_cases h with rfl | ⟨y, hcommit⟩
          · exact Or.inl hlease'
          · have hcommitted := (execute_commit hy hcommit).1
            rw [← Option.some.inj (hcommitted.symm.trans hlease')]
            exact Or.inr hpair
      · exact fun _ _ _ _ _ => Reports.of_token (by rw [hrequest]; rfl)

theorem release_safe {ownerId : String} {fencingToken : Nat}
    (hrequest : requests i = .release ownerId fencingToken) :
    CallSafe requests i (release ownerId fencingToken) s := by
  have htoken : (requests i).fencingToken = some fencingToken := by rw [hrequest]; rfl
  refine safe_plain (o := .ensureSchema) trivial (Int.le_refl _) fun t _ _ => ?_
  refine safe_quiet (P := fun _ => True) (o := .select) trivial trivial
    (fun _ _ _ _ => trivial) ?_
  rintro u x db - hselect
  obtain ⟨hx, rfl⟩ := Prod.mk.inj (Option.some.inj hselect)
  obtain rfl := Except.ok.inj hx
  cases hlease : u.db.lease with
  | none => exact Reports.of_refused
  | some lease =>
    dsimp only
    split
    · exact Reports.of_refused
    · rename_i howner
      split
      · exact Reports.of_refused
      · rename_i hvalidToken
        have hpair : lease.pair = (ownerId, fencingToken) :=
          Prod.ext (not_not.mp howner) (not_not.mp hvalidToken)
        refine safe_last (P := Sees service i fun p _ => p = (ownerId, fencingToken))
          (o := .delete) (sees_track_read fun lease' _ hstored => ?_) (fun _ _ => Sees.stable) ?_ ?_
        · have hstored' : some lease = some lease' := hlease.symm.trans hstored
          rw [← Option.some.inj hstored', hpair]
        · intro v c x db hv h
          refine Guar.track _ (query_keep h) fun hfree => ?_
          rw [hrequest]
          refine Respects.of_own service rfl (hv hfree) fun lease' hstored => Or.inl ?_
          rw [track_db] at hstored
          rcases query_cases h with rfl | ⟨y, hdelete⟩
          · exact hstored
          · cases (execute_delete hdelete).symm.trans hstored
        · exact fun _ _ _ _ _ => Reports.of_token htoken

theorem validate_safe {ownerId : String} {fencingToken : Nat}
    (nowIso : Instant) (hrequest : requests i = .validate ownerId fencingToken) :
    CallSafe requests i (validate ownerId fencingToken nowIso) s := by
  have htoken : (requests i).fencingToken = some fencingToken := by rw [hrequest]; rfl
  refine safe_plain (o := .ensureSchema) trivial (Int.le_refl _) fun t _ _ => ?_
  refine safe_plain (o := .select) trivial (Int.le_refl _) fun u x _ => ?_
  cases x with
  | none => exact Reports.of_refused
  | some lease =>
    dsimp only
    split <;> exact Reports.of_token htoken

/-- **Every call is safe**, whatever the others do. -/
theorem call_safe (resource : String) (i : ι) (s : Shared ι (Row ι)) :
    CallSafe requests i (call deadline resource (requests i)) s := by
  refine safe_clock_bind Keep.refl fun t => ?_
  cases hrequest : requests i with
  | acquire ownerId ttlMs => exact acquire_safe hrequest (Int.le_refl _)
  | renew ownerId fencingToken ttlMs => exact renew_safe hrequest (Int.le_refl _)
  | release ownerId fencingToken => exact release_safe hrequest
  | validate ownerId fencingToken => exact validate_safe t.now hrequest

theorem start_safe (resource : String) (lease : Option DistributedLockLease) (now : Instant)
    (sequence : Nat) :
    SafeCalls service Keep requests (start deadline resource requests lease now sequence) :=
  fun i => call_safe resource i _

end Safety

end Postgres

end AiOrchestrator
