import AiOrchestrator.Lib.Interleave
import AiOrchestrator.State.Locks

/-!
# Calls that contend for one lease

What the lock stores over a database or a key-value service have in common: the calls on one
resource are programs over single queries, which interleave with each other, with the clock and
with expiry in the service. The time stamp of a call is the clock at its start.

The state records, for the statements only, which call put the stored lease (`putBy`) and which
calls are **overtaken**: the stored lease was put there by another call since they last read the
record. Renewals of the same lease do not count, and once the lease is gone nobody is overtaken.
Under `Sees` a call knows what it has read as long as it is not overtaken; that is the assertion
that the proofs of the single stores carry from a check to the write that relies on it.

It also records which lease each call has put (`put`), and until when this lease is valid as later
calls have left it (`validUntil`). `Held` is the invariant behind exclusion: a lease that is still
valid is the stored one.
-/

namespace AiOrchestrator

/-- A call on the resource. -/
inductive LockRequest (Ttl : Type)
  | acquire (ownerId : String) (ttlMs : Ttl)
  | renew (ownerId : String) (fencingToken : Nat) (ttlMs : Ttl)
  | release (ownerId : String) (fencingToken : Nat)
  | validate (ownerId : String) (fencingToken : Nat)

namespace LockRequest

variable {Ttl : Type}

def ownerId : LockRequest Ttl → String
  | acquire ownerId _ | renew ownerId _ _ | release ownerId _ | validate ownerId _ => ownerId

/-- The token that a call presents. -/
def fencingToken : LockRequest Ttl → Option Nat
  | acquire _ _ => none
  | renew _ fencingToken _ | release _ fencingToken | validate _ fencingToken => some fencingToken

end LockRequest

/-- Owner and token of a lease: what identifies it, whatever its deadline. -/
def DistributedLockLease.pair (lease : DistributedLockLease) : String × Nat :=
  (lease.ownerId, lease.fencingToken)

namespace Contention

/-- Queries of a service, and the clock of the caller. -/
inductive Op (Query : Type)
  | clock
  | query (o : Query)

def Op.Res {Query : Type} (Res : Query → Type) : Op Query → Type
  | clock => Instant
  | query o => Res o

/-- What becomes of a query: it is answered, it is refused and does nothing, or it is executed and
its answer is lost. -/
inductive Fate
  | answered | refused | lost
deriving DecidableEq

/-- **A service** that stores the lease of the resource. -/
structure Service (ι Query : Type) (Res : Query → Type) (ε Db : Type) where
  /-- What a query of a call answers and does; `none` means that it waits. -/
  query : ι → Fate → (o : Query) → Db → Option (Except ε (Res o) × Db)
  /-- Expiry of the lease in the service. -/
  expire : Db → Option Db
  stored : Db → Option DistributedLockLease
  /-- The version of the record, which every write increases. -/
  version : Db → Nat
  /-- The queries that read the record. -/
  reads : Query → Bool

section Record

variable {ι Query : Type} {Res : Query → Type} {ε Db : Type}

/-- The record: the stored lease and its version. -/
def Service.record (service : Service ι Query Res ε Db) (db : Db) :
    Option DistributedLockLease × Nat :=
  (service.stored db, service.version db)

theorem Service.stored_eq {service : Service ι Query Res ε Db} {db db' : Db}
    (h : service.record db = service.record db') : service.stored db = service.stored db' :=
  congrArg Prod.fst h

end Record

structure Shared (ι Db : Type) where
  db : Db
  now : Instant
  overtaken : ι → Bool
  putBy : Option ι
  /-- The lease that a call has put last. -/
  put : ι → Option DistributedLockLease
  /-- Until when the lease that a call has put last is valid, as the renewals have left it; `none`
  once it was released. -/
  validUntil : ι → Option Instant

/-- The calls before any of them has put a lease. -/
def Shared.start {ι Db : Type} (db : Db) (now : Instant) : Shared ι Db :=
  { db, now, overtaken := fun _ => false, putBy := none, put := fun _ => none
    validUntil := fun _ => none }

inductive Drift
  | tick (ms : Nat)
  | expire
deriving DecidableEq

section Server

variable {ι Ttl Query : Type} [DecidableEq ι] {Res : Query → Type} {ε Db : Type}
  (service : Service ι Query Res ε Db)

/-- The validities after a call has changed the deadline of the stored lease. -/
def Shared.setValidity (s : Shared ι Db) (deadline : Option Instant) : ι → Option Instant :=
  match s.putBy with
  | none => s.validUntil
  | some i => Function.update s.validUntil i deadline

/-- The shared state after the call `i` has taken the database to `db`. -/
def Shared.track (request : LockRequest Ttl) (i : ι) (reads : Bool) (s : Shared ι Db) (db : Db) :
    Shared ι Db :=
  if service.record db = service.record s.db then
    { s with db, overtaken := if reads then Function.update s.overtaken i false else s.overtaken }
  else
    match service.stored db with
    | none =>
      { s with db, overtaken := fun _ => false, putBy := none, validUntil := s.setValidity none }
    | some lease =>
      -- a call with a token that leaves the pair renews the lease
      if request.fencingToken ≠ none ∧
          (service.stored s.db).map DistributedLockLease.pair = some lease.pair then
        { s with db, validUntil := s.setValidity (some lease.expiresAtIso) }
      else
        { s with
          db
          overtaken := fun j => decide (j ≠ i)
          putBy := some i
          put := Function.update s.put i (some lease)
          validUntil := Function.update s.validUntil i (some lease.expiresAtIso) }

def Service.server (requests : ι → LockRequest Ttl) :
    Server ι (Op Query) (fun o => Except ε (o.Res Res)) (Shared ι Db) Fate Drift where
  serve i c
    | .clock, s => some (.ok s.now, s)
    | .query o, s =>
      (service.query i c o s.db).map fun (x, db) =>
        (x, s.track service (requests i) i (service.reads o) db)
  drift
    | .tick ms, s => some { s with now := s.now + ms }
    | .expire, s =>
      (service.expire s.db).map fun db =>
        { s with db, overtaken := fun _ => false, putBy := none }

end Server

/-- Programs of calls. -/
abbrev Call (Query : Type) (Res : Query → Type) (ε α : Type) :=
  Act ε (Op Query) (fun o => Except ε (o.Res Res)) α

/-- Issue a query. -/
def query {Query : Type} {Res : Query → Type} {ε : Type} (o : Query) :
    Call Query Res ε (Res o) :=
  @Act.ask ε (Op Query) (Op.Res Res) (.query o)

/-- Read the clock. -/
def clock {Query : Type} {Res : Query → Type} {ε : Type} : Call Query Res ε Instant :=
  @Act.ask ε (Op Query) (Op.Res Res) .clock

/-! ### What a write must leave alone -/

section Respects

variable {ι Ttl Query : Type} {Res : Query → Type} {ε Db : Type}
  (service : Service ι Query Res ε Db)

/-- **Respect for the holder** by one step of the call `i`. -/
structure Respects (request : LockRequest Ttl) (i : ι) (s t : Shared ι Db) : Prop where
  /-- An unexpired lease of a different owner is left unchanged. -/
  holder : ∀ lease, service.stored s.db = some lease → s.now < lease.expiresAtIso →
    lease.ownerId ≠ request.ownerId → service.stored t.db = some lease
  /-- A call with another token neither deletes nor replaces the stored lease. -/
  stale : ∀ lease token, service.stored s.db = some lease → request.fencingToken = some token →
    lease.fencingToken ≠ token → service.stored t.db = some lease
  /-- An acquisition takes effect only where no unexpired lease of another call is stored. -/
  exclusive : ∀ lease, request.fencingToken = none → service.stored s.db = some lease →
    s.now < lease.expiresAtIso → service.record t.db ≠ service.record s.db → s.putBy = some i
  /-- A call with a token at most renews the stored lease. -/
  renews : ∀ lease lease' token, request.fencingToken = some token →
    service.stored s.db = some lease → service.stored t.db = some lease' → lease'.pair = lease.pair

theorem Respects.of_same {request : LockRequest Ttl} {i : ι} {s t : Shared ι Db}
    (h : service.record t.db = service.record s.db) : Respects service request i s t where
  holder := fun _ hstored _ _ => (Service.stored_eq h).trans hstored
  stale := fun _ _ hstored _ _ => (Service.stored_eq h).trans hstored
  exclusive := fun _ _ _ _ hne => absurd h hne
  renews := by
    intro lease lease' token _ hstored hstored'
    rw [Option.some.inj (hstored'.symm.trans ((Service.stored_eq h).trans hstored))]

/-- A call with a token may delete a lease with its own pair, or put one with it. -/
theorem Respects.of_own {request : LockRequest Ttl} {token : Nat} {i : ι} {s t : Shared ι Db}
    (htoken : request.fencingToken = some token)
    (h : ∀ lease, service.stored s.db = some lease → lease.pair = (request.ownerId, token))
    (h' : ∀ lease, service.stored t.db = some lease → service.stored s.db = some lease ∨
      lease.pair = (request.ownerId, token)) :
    Respects service request i s t where
  holder := by
    intro lease hstored _ howner
    exact absurd (congrArg Prod.fst (h lease hstored)) howner
  stale := by
    intro lease token' hstored htoken' hne
    obtain rfl : token = token' := Option.some.inj (htoken.symm.trans htoken')
    exact absurd (congrArg Prod.snd (h lease hstored)) hne
  exclusive := by
    intro lease hnone
    rw [htoken] at hnone
    cases hnone
  renews := by
    intro lease lease' token' _ hstored hstored'
    rcases h' lease' hstored' with hsame | hpair
    · rw [Option.some.inj (hsame.symm.trans hstored)]
    · rw [hpair, h lease hstored]

/-- An acquisition may replace an expired lease, and one that it has put itself. -/
theorem Respects.of_acquire {ownerId : String} {ttlMs : Ttl} {i : ι} {s t : Shared ι Db}
    (h : ∀ lease, service.stored s.db = some lease → lease.expiresAtIso ≤ s.now ∨
      lease.ownerId = ownerId ∧ s.putBy = some i) :
    Respects service (.acquire ownerId ttlMs) i s t where
  holder := by
    intro lease hstored hnow howner
    rcases h lease hstored with hexpired | ⟨hown, -⟩
    · exact absurd hnow (Int.not_lt.mpr hexpired)
    · exact absurd hown howner
  stale := by
    intro lease token _ hnone
    cases hnone
  exclusive := by
    intro lease _ hstored hnow _
    rcases h lease hstored with hexpired | ⟨-, hput⟩
    · exact absurd hnow (Int.not_lt.mpr hexpired)
    · exact hput
  renews := by
    intro lease lease' token hnone
    cases hnone

end Respects

/-! ### Rely and guarantee of a call -/

section Safety

variable {ι Ttl Query : Type} [DecidableEq ι] {Res : Query → Type} {ε Db : Type}
  (service : Service ι Query Res ε Db)

/-- What a call relies on: what it has read stays, or is gone, or the call is overtaken; the lease
that it has put is recorded; and what the service promises it about the database (`keep`). -/
structure Rely (keep : ι → Db → Db → Prop) (j : ι) (s t : Shared ι Db) : Prop where
  now : s.now ≤ t.now
  lease : service.stored t.db = none ∨
    ((service.stored t.db).map DistributedLockLease.pair =
        (service.stored s.db).map DistributedLockLease.pair ∧
      t.putBy = s.putBy ∧ (t.overtaken j = false → s.overtaken j = false)) ∨
    t.overtaken j = true
  put : t.put j = s.put j
  keep : keep j s.db t.db

/-- What a call guarantees. -/
structure Guar (keep : ι → Db → Db → Prop) (requests : ι → LockRequest Ttl) (i : ι)
    (s t : Shared ι Db) : Prop where
  others : ∀ j, i ≠ j → Rely service keep j s t
  respects : s.overtaken i = false → Respects service (requests i) i s t

/-- **Knowledge of a call**: unless it is overtaken, the stored lease and its origin satisfy `P`. -/
def Sees (i : ι) (P : String × Nat → Option ι → Prop) (s : Shared ι Db) : Prop :=
  s.overtaken i = false → ∀ lease, service.stored s.db = some lease → P lease.pair s.putBy

/-- What an acquisition reports: the lease that it has put. -/
def Reports (requests : ι → LockRequest Ttl) (i : ι) (r : Except ε LockReply) (s : Shared ι Db) :
    Prop :=
  ∀ lease, (requests i).fencingToken = none → r = .ok (.granted lease) → s.put i = some lease

variable {service} {keep : ι → Db → Db → Prop} {requests : ι → LockRequest Ttl} {i j : ι}
  {s t : Shared ι Db} {request : LockRequest Ttl}

omit [DecidableEq ι] in
theorem Reports.of_error {e : ε} : Reports requests i (.error e) s := fun _ _ h => by cases h

omit [DecidableEq ι] in
theorem Reports.of_refused {reason : LockRefusal} {lease : Option DistributedLockLease} :
    Reports (ε := ε) requests i (.ok (.refused reason lease)) s := fun _ _ h => by cases h

omit [DecidableEq ι] in
theorem Reports.of_token {token : Nat} {r : Except ε LockReply}
    (h : (requests i).fencingToken = some token) : Reports requests i r s := by
  intro lease hnone
  rw [h] at hnone
  cases hnone

omit [DecidableEq ι] in
theorem Sees.stable {P : String × Nat → Option ι → Prop} (hs : Sees service i P s)
    (h : Rely service keep i s t) : Sees service i P t := by
  intro hfree lease hstored
  rcases h.lease with hnone | ⟨hpair, hput, hback⟩ | hover
  · rw [hnone] at hstored
    cases hstored
  · rw [hstored, Option.map_some] at hpair
    obtain ⟨lease', hstored', hpair'⟩ := Option.map_eq_some_iff.mp hpair.symm
    rw [← hpair', hput]
    exact hs (hback hfree) lease' hstored'
  · rw [hover] at hfree
    cases hfree

@[simp] theorem track_db (request : LockRequest Ttl) (i : ι) (reads : Bool) (s : Shared ι Db)
    (db : Db) : (s.track service request i reads db).db = db := by
  unfold Shared.track
  split
  · rfl
  · split
    · rfl
    · split <;> rfl

@[simp] theorem track_now (request : LockRequest Ttl) (i : ι) (reads : Bool) (s : Shared ι Db)
    (db : Db) : (s.track service request i reads db).now = s.now := by
  unfold Shared.track
  split
  · rfl
  · split
    · rfl
    · split <;> rfl

/-- A query tells the other calls the truth about the lease. -/
theorem rely_track (hij : i ≠ j) (reads : Bool) {db : Db} (hkeep : keep j s.db db) :
    Rely service keep j s (s.track service request i reads db) where
  now := Int.le_of_eq (track_now request i reads s db).symm
  keep := by rwa [track_db]
  put := by
    unfold Shared.track
    split
    · rfl
    · split
      · rfl
      · split
        · rfl
        · exact Function.update_of_ne (Ne.symm hij) _ _
  lease := by
    rw [track_db]
    unfold Shared.track
    split
    · rename_i hsame
      refine Or.inr (Or.inl ⟨by rw [Service.stored_eq hsame], rfl, ?_⟩)
      cases reads with
      | true =>
        intro hfree
        simpa [Function.update_of_ne (Ne.symm hij)] using hfree
      | false => exact id
    · split
      · rename_i hnone
        exact Or.inl hnone
      · rename_i lease hstored
        split
        · rename_i hrenewed
          refine Or.inr (Or.inl ⟨?_, rfl, id⟩)
          rw [hstored, hrenewed.2, Option.map_some]
        · exact Or.inr (Or.inr (by simpa using fun h : j = i => hij h.symm))

/-- After a query that reads the record and leaves it, the call sees what is stored. -/
theorem sees_track_read {P : String × Nat → Option ι → Prop} {db : Db}
    (hP : ∀ lease putBy, service.stored db = some lease → P lease.pair putBy) :
    Sees service i P (s.track service request i true db) := by
  intro _ lease hstored
  rw [track_db] at hstored
  exact hP lease _ hstored

/-! What a query of a call does: nothing to the record, a deletion, a renewal or a new lease. -/

section Track

variable {db : Db} {lease : DistributedLockLease} (reads : Bool)

theorem track_same (hsame : service.record db = service.record s.db) :
    s.track service request i reads db =
      { s with
        db
        overtaken := if reads then Function.update s.overtaken i false else s.overtaken } :=
  if_pos hsame

theorem track_none (hdb : service.stored db = none)
    (hchanged : service.record db ≠ service.record s.db) :
    s.track service request i reads db =
      { s with
        db
        overtaken := fun _ => false
        putBy := none
        validUntil := s.setValidity none } := by
  unfold Shared.track
  rw [if_neg hchanged, hdb]

theorem track_renew (hdb : service.stored db = some lease)
    (hchanged : service.record db ≠ service.record s.db)
    (hrenews : request.fencingToken ≠ none ∧
      (service.stored s.db).map DistributedLockLease.pair = some lease.pair) :
    s.track service request i reads db =
      { s with db, validUntil := s.setValidity (some lease.expiresAtIso) } := by
  unfold Shared.track
  rw [if_neg hchanged, hdb]
  exact if_pos hrenews

theorem track_put (hdb : service.stored db = some lease)
    (hchanged : service.record db ≠ service.record s.db)
    (hnew : ¬ (request.fencingToken ≠ none ∧
      (service.stored s.db).map DistributedLockLease.pair = some lease.pair)) :
    s.track service request i reads db =
      { s with
        db
        overtaken := fun j => decide (j ≠ i)
        putBy := some i
        put := Function.update s.put i (some lease)
        validUntil := Function.update s.validUntil i (some lease.expiresAtIso) } := by
  unfold Shared.track
  rw [if_neg hchanged, hdb]
  exact if_neg hnew

end Track

/-- After a query that puts a lease where there was none, the call sees its own lease. -/
theorem sees_track_put {P : String × Nat → Option ι → Prop} {db : Db}
    {lease : DistributedLockLease} (reads : Bool) (hdb : service.stored db = some lease)
    (hnew : service.stored s.db = none) (hP : P lease.pair (some i)) :
    Sees service i P (s.track service request i reads db) := by
  have hchanged : service.record db ≠ service.record s.db := by
    intro hsame
    cases (hdb.symm.trans (Service.stored_eq hsame)).trans hnew
  rw [track_put reads hdb hchanged (by simp [hnew])]
  intro _ lease' hstored
  obtain rfl := Option.some.inj (hdb.symm.trans hstored)
  exact hP

/-- An acquisition that writes a lease puts it. -/
theorem put_track {db : Db} {lease : DistributedLockLease} (reads : Bool)
    (hacquires : request.fencingToken = none) (hdb : service.stored db = some lease)
    (hchanged : service.record db ≠ service.record s.db) :
    (s.track service request i reads db).put i = some lease := by
  rw [track_put reads hdb hchanged (fun h => h.1 hacquires)]
  exact Function.update_self _ _ _

/-- A query of its own that leaves the record keeps what a call sees. -/
theorem Sees.track_same {P : String × Nat → Option ι → Prop} {db : Db} (hs : Sees service i P s)
    (hsame : service.record db = service.record s.db) :
    Sees service i P (s.track service request i false db) := by
  intro hfree lease hstored
  rw [track_db, Service.stored_eq hsame] at hstored
  rw [Contention.track_same false hsame] at hfree ⊢
  exact hs hfree lease hstored

/-- The effect of a query. -/
theorem eff_query {o : Query} {x : Except ε (Res o)}
    (h : (service.server requests).eff i (.query o) s x t) :
    ∃ c db, service.query i c o s.db = some (x, db) ∧
      t = s.track service (requests i) i (service.reads o) db := by
  obtain ⟨c, h⟩ := h
  obtain ⟨⟨x', db⟩, hquery, heq⟩ := Option.map_eq_some_iff.mp h
  obtain ⟨rfl, rfl⟩ := Prod.mk.inj heq
  exact ⟨c, db, hquery, rfl⟩

theorem eff_clock {x : Except ε Instant} (h : (service.server requests).eff i .clock s x t) :
    x = .ok s.now ∧ t = s := by
  obtain ⟨c, h⟩ := h
  obtain ⟨rfl, rfl⟩ := Prod.mk.inj (Option.some.inj h)
  exact ⟨rfl, rfl⟩

/-- Time and expiry keep what a call relies on. -/
theorem rely_drift (hkeep : ∀ db db', service.expire db = some db' → service.stored db' = none ∧
      ∀ j, keep j db db') (hrefl : ∀ j db, keep j db db)
    (h : (service.server requests).drifts s t) : Rely service keep j s t := by
  obtain ⟨e, h⟩ := h
  cases e with
  | tick ms =>
    obtain rfl := Option.some.inj h
    have hnow : s.now ≤ s.now + (ms : Int) :=
      Int.le_add_of_nonneg_right (Int.natCast_nonneg ms)
    exact ⟨hnow, Or.inr (Or.inl ⟨rfl, rfl, id⟩), rfl, hrefl j s.db⟩
  | expire =>
    obtain ⟨db, hexpire, rfl⟩ := Option.map_eq_some_iff.mp h
    obtain ⟨hnone, hkeep⟩ := hkeep _ _ hexpire
    exact ⟨Int.le_refl _, Or.inl hnone, rfl, hkeep j⟩

omit [DecidableEq ι] in
theorem Guar.refl (hrefl : ∀ j db, keep j db db) : Guar service keep requests i s s where
  others := fun j _ => ⟨Int.le_refl _, Or.inr (Or.inl ⟨rfl, rfl, id⟩), rfl, hrefl j s.db⟩
  respects := fun _ => Respects.of_same service rfl

theorem Guar.track (reads : Bool) {db : Db} (hkeep : ∀ j, i ≠ j → keep j s.db db)
    (hrespects : s.overtaken i = false →
      Respects service (requests i) i s (s.track service (requests i) i reads db)) :
    Guar service keep requests i s (s.track service (requests i) i reads db) where
  others := fun j hij => rely_track hij reads (hkeep j hij)
  respects := hrespects

/-- A query that leaves the record alone. -/
theorem Guar.quiet (reads : Bool) {db : Db} (hkeep : ∀ j, i ≠ j → keep j s.db db)
    (hsame : service.record db = service.record s.db) :
    Guar service keep requests i s (s.track service (requests i) i reads db) :=
  Guar.track reads hkeep fun _ => Respects.of_same service (by rwa [track_db])

/-- **The rule for a query** in the program of a call. -/
theorem safe_query_bind {α : Type} {P : Shared ι Db → Prop} {o : Query}
    {f : Res o → Call Query Res ε α} {Q : Except ε α → Shared ι Db → Prop} (hs : P s)
    (hstable : ∀ s t, P s → Rely service keep i s t → P t)
    (hok : ∀ t c x db, P t → service.query i c o t.db = some (.ok x, db) →
      Guar service keep requests i t (t.track service (requests i) i (service.reads o) db) ∧
        Act.Safe ((service.server requests).eff i) (Rely service keep i)
          (Guar service keep requests i) (f x) Q
          (t.track service (requests i) i (service.reads o) db))
    (herror : ∀ t c e db, P t → service.query i c o t.db = some (.error e, db) →
      Guar service keep requests i t (t.track service (requests i) i (service.reads o) db) ∧
        Q (.error e) (t.track service (requests i) i (service.reads o) db)) :
    Act.Safe ((service.server requests).eff i) (Rely service keep i) (Guar service keep requests i)
      (query o >>= f) Q s := by
  refine Act.safe_ask_bind hs hstable ?_ ?_
  · intro t x u ht he
    obtain ⟨c, db, hquery, rfl⟩ := eff_query he
    exact hok t c x db ht hquery
  · intro t e u ht he
    obtain ⟨c, db, hquery, rfl⟩ := eff_query he
    exact herror t c e db ht hquery

/-- The rule for a query whose failure is a result. -/
theorem safe_attempt_bind {α : Type} {P : Shared ι Db → Prop} {o : Query}
    {f : Except ε (Res o) → Call Query Res ε α} {Q : Except ε α → Shared ι Db → Prop} (hs : P s)
    (hstable : ∀ s t, P s → Rely service keep i s t → P t)
    (hquery : ∀ t c x db, P t → service.query i c o t.db = some (x, db) →
      Guar service keep requests i t (t.track service (requests i) i (service.reads o) db) ∧
        Act.Safe ((service.server requests).eff i) (Rely service keep i)
          (Guar service keep requests i) (f x) Q
          (t.track service (requests i) i (service.reads o) db)) :
    Act.Safe ((service.server requests).eff i) (Rely service keep i) (Guar service keep requests i)
      (Act.attempt (query o) >>= f) Q s := by
  rw [Act.safe_bind, Act.safe_attempt]
  refine Act.safe_ask hs hstable ?_
  intro t x u ht he
  obtain ⟨c, db, hq, rfl⟩ := eff_query he
  exact hquery t c x db ht hq

/-- The rule for reading the clock. -/
theorem safe_clock_bind {α : Type} (hrefl : ∀ j db, keep j db db)
    {f : Instant → Call Query Res ε α} {Q : Except ε α → Shared ι Db → Prop}
    (hok : ∀ t : Shared ι Db, Act.Safe ((service.server requests).eff i) (Rely service keep i)
      (Guar service keep requests i) (f t.now) Q t) :
    Act.Safe ((service.server requests).eff i) (Rely service keep i) (Guar service keep requests i)
      (clock >>= f) Q s := by
  refine Act.safe_ask_bind (P := fun _ => True) trivial (fun _ _ _ _ => trivial) ?_ ?_
  · intro t x u _ he
    obtain ⟨hx, rfl⟩ := eff_clock he
    obtain rfl := Except.ok.inj hx
    exact ⟨Guar.refl hrefl, hok u⟩
  · intro t e u _ he
    obtain ⟨hx, -⟩ := eff_clock he
    cases hx

/-- Safe calls, whose acquisitions report the leases that they have put. -/
abbrev SafeCalls (service : Service ι Query Res ε Db) (keep : ι → Db → Db → Prop)
    (requests : ι → LockRequest Ttl)
    (p : Pool ι (Op Query) (fun o => Except ε (o.Res Res)) (Except ε LockReply) (Shared ι Db)) :
    Prop :=
  p.SafeTo (service.server requests) (Rely service keep) (Guar service keep requests)
    (Reports requests)

/-! ### Exclusion -/

/-- The lease that a call has put last is valid. -/
def Valid (s : Shared ι Db) (i : ι) : Prop :=
  ∃ deadline, s.validUntil i = some deadline ∧ s.now < deadline

/-- **A valid lease is the stored one.** -/
def Held (service : Service ι Query Res ε Db) (s : Shared ι Db) : Prop :=
  ∀ i deadline, s.validUntil i = some deadline → s.now < deadline →
    s.putBy = some i ∧ ∃ lease, service.stored s.db = some lease ∧ lease.expiresAtIso = deadline

omit [DecidableEq ι] in
/-- One lease at a time is valid. -/
theorem Held.exclusive (h : Held service s) (hi : Valid s i) (hj : Valid s j) : i = j := by
  obtain ⟨_, hi, hinow⟩ := hi
  obtain ⟨_, hj, hjnow⟩ := hj
  exact Option.some.inj ((h i _ hi hinow).1.symm.trans (h j _ hj hjnow).1)

omit [DecidableEq ι] in
theorem held_start (db : Db) (now : Instant) : Held service (Shared.start (ι := ι) db now) :=
  fun _ _ h => by cases h

/-- A new deadline of the stored lease is that of the call that has put it. -/
theorem Held.setValidity (h : Held service s) {deadline : Option Instant} {d : Instant}
    (hd : s.setValidity deadline i = some d) (hnow : s.now < d) :
    s.putBy = some i ∧ deadline = some d := by
  unfold Shared.setValidity at hd
  cases hput : s.putBy with
  | none =>
    rw [hput] at hd
    cases hput.symm.trans (h i d hd hnow).1
  | some k =>
    rw [hput] at hd
    by_cases hk : i = k
    · subst hk
      exact ⟨rfl, (Function.update_self i deadline s.validUntil).symm.trans hd⟩
    · have hkept : s.validUntil i = some d := (Function.update_of_ne hk _ _).symm.trans hd
      exact absurd (Option.some.inj (hput.symm.trans (h i d hkept hnow).1)).symm hk

/-- **One query** of a call that respects the holder keeps that. -/
theorem Held.track (h : Held service s) (reads : Bool) {db : Db}
    (hrespects : service.record db ≠ service.record s.db →
      Respects service request i s (s.track service request i reads db)) :
    Held service (s.track service request i reads db) := by
  intro k d hd hnow
  rw [track_now] at hnow
  by_cases hsame : service.record db = service.record s.db
  · rw [track_same reads hsame] at hd ⊢
    obtain ⟨hput, lease, hstored, hexpires⟩ := h k d hd hnow
    exact ⟨hput, lease, (Service.stored_eq hsame).trans hstored, hexpires⟩
  cases hdb : service.stored db with
  | none =>
    -- the lease is released, so that nothing is valid
    rw [track_none reads hdb hsame] at hd
    cases (h.setValidity hd hnow).2
  | some lease =>
    by_cases hrenews : request.fencingToken ≠ none ∧
        (service.stored s.db).map DistributedLockLease.pair = some lease.pair
    · rw [track_renew reads hdb hsame hrenews] at hd ⊢
      obtain ⟨hput, hdeadline⟩ := h.setValidity hd hnow
      exact ⟨hput, lease, hdb, Option.some.inj hdeadline⟩
    · have hrespects := hrespects hsame
      rw [track_put reads hdb hsame hrenews] at hd hrespects ⊢
      by_cases hk : k = i
      · subst hk
        have hdeadline := (Function.update_self k (some lease.expiresAtIso) s.validUntil).symm.trans hd
        exact ⟨rfl, lease, hdb, Option.some.inj hdeadline⟩
      -- a lease of another call is valid: the writing call would have had to leave it alone
      have hkept : s.validUntil k = some d := (Function.update_of_ne hk _ _).symm.trans hd
      obtain ⟨hput, lease', hstored, rfl⟩ := h k d hkept hnow
      cases htoken : request.fencingToken with
      | none =>
        have hown := hrespects.exclusive lease' htoken hstored hnow hsame
        exact absurd (Option.some.inj (hput.symm.trans hown)) hk
      | some token =>
        have hpair := hrespects.renews lease' lease token htoken hstored hdb
        refine absurd ⟨?_, ?_⟩ hrenews
        · rw [htoken]
          exact Option.some_ne_none token
        · rw [hstored, Option.map_some, hpair]

/-- Time keeps that, and so does the removal of an expired lease. -/
theorem Held.drift (h : Held service s) {e : Drift}
    (hdrift : (service.server requests).drift e s = some t)
    (hlate : e = .expire → ∀ lease, service.stored s.db = some lease →
      lease.expiresAtIso ≤ s.now) : Held service t := by
  intro k d hd hnow
  cases e with
  | tick ms =>
    obtain rfl := Option.some.inj hdrift
    have hle : s.now ≤ s.now + (ms : Int) := Int.le_add_of_nonneg_right (Int.natCast_nonneg ms)
    exact h k d hd (Int.lt_of_le_of_lt hle hnow)
  | expire =>
    obtain ⟨db, hdb, rfl⟩ := Option.map_eq_some_iff.mp hdrift
    obtain ⟨-, lease, hstored, rfl⟩ := h k d hd hnow
    exact absurd hnow (Int.not_lt.mpr (hlate rfl lease hstored))

/-- **The condition of a move**: a call that writes is not overtaken, and the service removes no
lease before its deadline. -/
def Undisturbed (service : Service ι Query Res ε Db) (requests : ι → LockRequest Ttl)
    (p : Pool ι (Op Query) (fun o => Except ε (o.Res Res)) (Except ε LockReply) (Shared ι Db)) :
    Move ι Fate Drift → Prop
  | .client i c => ∀ q, p.move (service.server requests) (.client i c) = some q →
      service.record q.state.db ≠ service.record p.state.db → p.state.overtaken i = false
  | .drift .expire => ∀ lease, service.stored p.state.db = some lease →
      lease.expiresAtIso ≤ p.state.now
  | .drift (.tick _) => True

/-- The condition as a check. -/
def undisturbedMove (service : Service ι Query Res ε Db) (requests : ι → LockRequest Ttl)
    (p : Pool ι (Op Query) (fun o => Except ε (o.Res Res)) (Except ε LockReply) (Shared ι Db)) :
    Move ι Fate Drift → Bool
  | .client i c => (p.move (service.server requests) (.client i c)).all fun q =>
      service.record q.state.db = service.record p.state.db || !p.state.overtaken i
  | .drift .expire => (service.stored p.state.db).all fun lease =>
      decide (lease.expiresAtIso ≤ p.state.now)
  | .drift (.tick _) => true

theorem undisturbed_of_move
    {p : Pool ι (Op Query) (fun o => Except ε (o.Res Res)) (Except ε LockReply) (Shared ι Db)}
    {m : Move ι Fate Drift} (h : undisturbedMove service requests p m = true) :
    Undisturbed service requests p m := by
  cases m with
  | client i c =>
    intro q step hchanged
    rw [undisturbedMove, step, Option.all_some, Bool.or_eq_true, decide_eq_true_eq] at h
    simpa using h.resolve_left hchanged
  | drift e =>
    cases e with
    | tick ms => trivial
    | expire =>
      intro lease hstored
      rw [undisturbedMove, hstored, Option.all_some] at h
      exact of_decide_eq_true h

/-- **Acquisitions do not overlap**: what an acquisition reports is the lease that it has put, and of
two acquisitions that have reported success one at most holds a valid lease. -/
structure Apart (requests : ι → LockRequest Ttl)
    (q : Pool ι (Op Query) (fun o => Except ε (o.Res Res)) (Except ε LockReply) (Shared ι Db)) :
    Prop where
  reported : ∀ i lease, (requests i).fencingToken = none →
    q.threads i = .ret (.ok (.granted lease)) → q.state.put i = some lease
  valid : ∀ i j a b, i ≠ j → (requests i).fencingToken = none → (requests j).fencingToken = none →
    q.threads i = .ret (.ok (.granted a)) → q.threads j = .ret (.ok (.granted b)) →
    ¬ (Valid q.state i ∧ Valid q.state j)

/-! ### Runs -/

section Runs

variable {p q r : Pool ι (Op Query) (fun o => Except ε (o.Res Res)) (Except ε LockReply)
    (Shared ι Db)}
  (hexpire : ∀ db db', service.expire db = some db' → service.stored db' = none ∧
    ∀ j, keep j db db')
  (hrefl : ∀ j db, keep j db db) (hsafe : SafeCalls service keep requests p)

include hexpire hrefl hsafe

/-- **Composition**: calls that are safe stay safe along every run. -/
theorem safeCalls_run {moves : List (Move ι Fate Drift)}
    (run : p.run (service.server requests) moves = some q) : SafeCalls service keep requests q :=
  Pool.safeTo_run (fun _ j hij _ _ h => h.others j hij) (fun _ _ _ h => rely_drift hexpire hrefl h)
    (fun _ _ _ _ hr h lease hacquires hgranted => h.put.trans (hr lease hacquires hgranted)) hsafe
    run

/-- In every run of safe calls, a step of a call that is not overtaken respects the holder. -/
theorem respects_of_run {moves : List (Move ι Fate Drift)}
    (run : p.run (service.server requests) moves = some q) {c : Fate}
    (step : q.move (service.server requests) (.client i c) = some r)
    (hfree : q.state.overtaken i = false) :
    Respects service (requests i) i q.state r.state :=
  ((safeCalls_run hexpire hrefl hsafe run).guar_of_move step).respects hfree

/-- **Exclusion**: along a run whose moves are all undisturbed, a lease that is valid is the stored
one. -/
theorem held_of_run (hheld : Held service p.state) {moves : List (Move ι Fate Drift)}
    (hundisturbed : Pool.Along (service.server requests) (Undisturbed service requests) p moves)
    (run : p.run (service.server requests) moves = some q) : Held service q.state := by
  refine (Pool.along_induction (I := fun p => SafeCalls service keep requests p ∧
    Held service p.state) ⟨hsafe, hheld⟩ ?_ hundisturbed run).2
  rintro p q m ⟨hsafe, hheld⟩ hcond step
  have one : p.run (service.server requests) [m] = some q := by
    rw [Pool.run_cons]
    exact ⟨q, step, rfl⟩
  refine ⟨safeCalls_run hexpire hrefl hsafe one, ?_⟩
  cases m with
  | client i c =>
    obtain ⟨o, k, x, -, hserve, -⟩ := Pool.move_client step
    -- A call that changes the record while undisturbed respects the leases of the others, so that
    -- the valid ones stay.
    have hrespects : service.record q.state.db ≠ service.record p.state.db →
        Respects service (requests i) i p.state q.state := fun hchanged =>
      (hsafe.guar_of_move step).respects (hcond q step hchanged)
    cases o with
    | clock =>
      obtain ⟨-, hsame⟩ := Prod.mk.inj (Option.some.inj hserve)
      rwa [← hsame]
    | query o =>
      obtain ⟨⟨x, db⟩, -, heq⟩ := Option.map_eq_some_iff.mp hserve
      obtain ⟨-, hstate⟩ := Prod.mk.inj heq
      rw [← hstate] at hrespects ⊢
      rw [track_db] at hrespects
      exact hheld.track _ hrespects
  | drift e =>
    refine hheld.drift (Pool.move_drift step).1 ?_
    rintro rfl
    exact hcond

/-- **Acquisitions do not overlap** in a state that such a run reaches. -/
theorem apart_of_run (hheld : Held service p.state) {moves : List (Move ι Fate Drift)}
    (hundisturbed : Pool.Along (service.server requests) (Undisturbed service requests) p moves)
    (run : p.run (service.server requests) moves = some q) : Apart requests q where
  reported := by
    intro i lease hacquires hgranted
    have hsafe' := safeCalls_run hexpire hrefl hsafe run i
    rw [hgranted] at hsafe'
    exact hsafe' lease hacquires rfl
  valid := by
    intro i j a b hij _ _ _ _ hboth
    exact hij ((held_of_run hexpire hrefl hsafe hheld hundisturbed run).exclusive hboth.1 hboth.2)

end Runs

end Safety

end Contention

end AiOrchestrator
