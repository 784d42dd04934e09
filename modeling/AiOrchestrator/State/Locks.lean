import AiOrchestrator.Lib.Dict

/-!
# The in-memory lock store

`InMemoryDistributedLockStore` (`packages/state/src/locks/distributed-lock.store.ts`): leases
with an owner, a fencing token and a deadline, one record a resource.

A valid time stamp is read here as the instant it names, in milliseconds, which is all that the
store does with it. What `new Date(new Date(nowIso).getTime() + ttlMs).toISOString()` yields is
a parameter `deadline`, `none` where it throws a `RangeError`: a time to live is any number, and
nothing below depends on how the sum is rounded.

A run of the store is a list of calls with their replies. The invariant `Fenced` relates the
records to the leases granted so far; every call keeps it, and exclusion and fencing are read
off it.
-/

namespace AiOrchestrator

/-- An instant, in milliseconds. -/
abbrev Instant := Int

structure DistributedLockLease where
  resource : String
  ownerId : String
  fencingToken : Nat
  acquiredAtIso : Instant
  expiresAtIso : Instant
deriving DecidableEq, Repr

inductive LockRefusal
  | alreadyLocked | missingLock | ownerMismatch | staleFencingToken | expired
deriving DecidableEq, Repr

/-- The results of the four calls. -/
inductive LockReply
  /-- `acquired`, `renewed` or `valid: true`, with the lease. -/
  | granted (lease : DistributedLockLease)
  /-- `released: true`. -/
  | released
  | refused (reason : LockRefusal) (lease : Option DistributedLockLease)
  /-- The `RangeError` of a deadline that is no date. -/
  | rangeError
deriving DecidableEq, Repr

/-- `validateLease`. -/
def validateLease (lease : DistributedLockLease) (ownerId : String) (fencingToken : Nat)
    (nowIso : Instant) : Except LockRefusal Unit :=
  if lease.expiresAtIso ≤ nowIso then .error .expired
  else if lease.ownerId ≠ ownerId then .error .ownerMismatch
  else if lease.fencingToken ≠ fencingToken then .error .staleFencingToken
  else .ok ()

theorem validateLease_ok_iff {lease : DistributedLockLease} {ownerId : String}
    {fencingToken : Nat} {nowIso : Instant} :
    validateLease lease ownerId fencingToken nowIso = .ok () ↔
      nowIso < lease.expiresAtIso ∧ lease.ownerId = ownerId ∧
        lease.fencingToken = fencingToken := by
  unfold validateLease
  by_cases hexpired : lease.expiresAtIso ≤ nowIso
  · rw [if_pos hexpired]
    constructor
    · intro h
      cases h
    · intro h
      exact absurd h.1 (Int.not_lt.mpr hexpired)
  rw [if_neg hexpired]
  by_cases howner : lease.ownerId = ownerId
  · by_cases htoken : lease.fencingToken = fencingToken
    · simp [howner, htoken, Int.not_le.mp hexpired]
    · simp [howner, htoken]
  · simp [howner]

/-- `asLease` of the stores over a service. -/
def asLease (resource ownerId : String) (nowIso expiresAtIso : Instant) (token : Nat) :
    DistributedLockLease :=
  { resource, ownerId, fencingToken := token, acquiredAtIso := nowIso, expiresAtIso }

/-- `renewLease` of the stores over a service. -/
def renewLease (lease : DistributedLockLease) (expiresAtIso : Instant) : DistributedLockLease :=
  { lease with expiresAtIso }

/-- `LockRecord`. -/
structure LockRecord where
  lease : DistributedLockLease
  lastFencingToken : Nat
deriving DecidableEq, Repr

structure InMemoryDistributedLockStore where
  records : Dict String LockRecord := ∅
  globalFencingCounter : Nat := 0

/-- A call of the store. -/
inductive LockCall (Ttl : Type)
  | acquire (resource ownerId : String) (nowIso : Instant) (ttlMs : Ttl)
  | renew (resource ownerId : String) (fencingToken : Nat) (nowIso : Instant) (ttlMs : Ttl)
  | release (resource ownerId : String) (fencingToken : Nat)
  | validate (resource ownerId : String) (fencingToken : Nat) (nowIso : Instant)

namespace LockCall

variable {Ttl : Type}

def resource : LockCall Ttl → String
  | acquire resource _ _ _ | renew resource _ _ _ _ | release resource _ _
  | validate resource _ _ _ => resource

/-- The token that a call presents; an acquisition presents none. -/
def fencingToken : LockCall Ttl → Option Nat
  | acquire _ _ _ _ => none
  | renew _ _ fencingToken _ _ | release _ _ fencingToken
  | validate _ _ fencingToken _ => some fencingToken

end LockCall

namespace InMemoryDistributedLockStore

section Calls

variable {Ttl : Type} (deadline : Instant → Ttl → Option Instant)

/-- `nextFencingToken`. -/
def nextFencingToken (store : InMemoryDistributedLockStore) : Nat × InMemoryDistributedLockStore :=
  (store.globalFencingCounter + 1,
    { store with globalFencingCounter := store.globalFencingCounter + 1 })

/-- **`acquire`**. The token is drawn before the deadline is computed, so that a deadline that
is no date costs a token. -/
def acquire (store : InMemoryDistributedLockStore) (resource ownerId : String)
    (nowIso : Instant) (ttlMs : Ttl) : LockReply × InMemoryDistributedLockStore :=
  let free :=
    let (token, store) := store.nextFencingToken
    match deadline nowIso ttlMs with
    | none => (.rangeError, store)
    | some expiresAtIso =>
      let lease : DistributedLockLease :=
        { resource, ownerId, fencingToken := token, acquiredAtIso := nowIso, expiresAtIso }
      (.granted lease,
        { store with records := store.records.set resource { lease, lastFencingToken := token } })
  match store.records.get? resource with
  | some current =>
    if current.lease.expiresAtIso > nowIso then
      (.refused .alreadyLocked (some current.lease), store)
    else free
  | none => free

/-- **`renew`**. -/
def renew (store : InMemoryDistributedLockStore) (resource ownerId : String)
    (fencingToken : Nat) (nowIso : Instant) (ttlMs : Ttl) :
    LockReply × InMemoryDistributedLockStore :=
  match store.records.get? resource with
  | none => (.refused .missingLock none, store)
  | some current =>
    match validateLease current.lease ownerId fencingToken nowIso with
    | .error reason => (.refused reason (some current.lease), store)
    | .ok () =>
      match deadline nowIso ttlMs with
      | none => (.rangeError, store)
      | some expiresAtIso =>
        let renewedLease := { current.lease with expiresAtIso }
        (.granted renewedLease,
          { store with
            records := store.records.set resource
              { lease := renewedLease, lastFencingToken := current.lastFencingToken } })

/-- **`release`**. -/
def release (store : InMemoryDistributedLockStore) (resource ownerId : String)
    (fencingToken : Nat) : LockReply × InMemoryDistributedLockStore :=
  match store.records.get? resource with
  | none => (.refused .missingLock none, store)
  | some current =>
    if current.lease.ownerId ≠ ownerId then
      (.refused .ownerMismatch (some current.lease), store)
    else if current.lease.fencingToken ≠ fencingToken then
      (.refused .staleFencingToken (some current.lease), store)
    else (.released, { store with records := store.records.erase resource })

/-- **`validate`**. -/
def validate (store : InMemoryDistributedLockStore) (resource ownerId : String)
    (fencingToken : Nat) (nowIso : Instant) : LockReply :=
  match store.records.get? resource with
  | none => .refused .missingLock none
  | some current =>
    match validateLease current.lease ownerId fencingToken nowIso with
    | .error reason => .refused reason (some current.lease)
    | .ok () => .granted current.lease

/-- One call. -/
def call (store : InMemoryDistributedLockStore) :
    LockCall Ttl → LockReply × InMemoryDistributedLockStore
  | .acquire resource ownerId nowIso ttlMs => store.acquire deadline resource ownerId nowIso ttlMs
  | .renew resource ownerId fencingToken nowIso ttlMs =>
    store.renew deadline resource ownerId fencingToken nowIso ttlMs
  | .release resource ownerId fencingToken => store.release resource ownerId fencingToken
  | .validate resource ownerId fencingToken nowIso =>
    (store.validate resource ownerId fencingToken nowIso, store)

/-- **Runs** of a new store, with the calls and their replies in order. -/
inductive Run : InMemoryDistributedLockStore → List (LockCall Ttl × LockReply) → Prop
  | start : Run {} []
  | call {store : InMemoryDistributedLockStore} {history : List (LockCall Ttl × LockReply)}
      (run : Run store history) (c : LockCall Ttl) :
      Run (store.call deadline c).2 (history ++ [(c, (store.call deadline c).1)])

end Calls

/-- The lease that an entry of a history granted by an acquisition. -/
def acquisition {Ttl : Type} : LockCall Ttl × LockReply → Option DistributedLockLease
  | (.acquire _ _ _ _, .granted lease) => some lease
  | _ => none

/-- The leases acquired in a history, oldest first. -/
def acquisitions {Ttl : Type} (history : List (LockCall Ttl × LockReply)) :
    List DistributedLockLease :=
  history.filterMap acquisition

/-- The pair of an owner and a token validates. -/
def Validates (store : InMemoryDistributedLockStore) (resource ownerId : String)
    (fencingToken : Nat) (nowIso : Instant) : Prop :=
  ∃ lease, store.validate resource ownerId fencingToken nowIso = .granted lease

instance (store : InMemoryDistributedLockStore) (resource ownerId : String) (fencingToken : Nat)
    (nowIso : Instant) : Decidable (store.Validates resource ownerId fencingToken nowIso) :=
  match h : store.validate resource ownerId fencingToken nowIso with
  | .granted lease => .isTrue ⟨lease, h⟩
  | .released => .isFalse fun ⟨_, hlease⟩ => by rw [h] at hlease; cases hlease
  | .refused _ _ => .isFalse fun ⟨_, hlease⟩ => by rw [h] at hlease; cases hlease
  | .rangeError => .isFalse fun ⟨_, hlease⟩ => by rw [h] at hlease; cases hlease

/-- Validation succeeds on the pair of the stored lease, up to its deadline and not at it. -/
theorem validates_iff {store : InMemoryDistributedLockStore} {resource ownerId : String}
    {fencingToken : Nat} {nowIso : Instant} :
    store.Validates resource ownerId fencingToken nowIso ↔
      ∃ current, store.records.get? resource = some current ∧
        nowIso < current.lease.expiresAtIso ∧ current.lease.ownerId = ownerId ∧
          current.lease.fencingToken = fencingToken := by
  unfold Validates validate
  cases hget : store.records.get? resource with
  | none => simp
  | some current =>
    simp only [Option.some.injEq, exists_eq_left', ← validateLease_ok_iff]
    cases validateLease current.lease ownerId fencingToken nowIso with
    | error reason => simp
    | ok _ => simp

/-! ### What a call can do -/

section Step

variable {Ttl : Type} (deadline : Instant → Ttl → Option Instant)
  (store : InMemoryDistributedLockStore)

/-- **Acquisitions**: a lease is granted exactly when the stored one has run out, or there is
none. -/
theorem acquire_cases (resource ownerId : String) (nowIso : Instant) (ttlMs : Ttl) :
    (∃ current, store.records.get? resource = some current ∧
        nowIso < current.lease.expiresAtIso ∧
        store.acquire deadline resource ownerId nowIso ttlMs =
          (.refused .alreadyLocked (some current.lease), store)) ∨
    ((∀ current, store.records.get? resource = some current →
        current.lease.expiresAtIso ≤ nowIso) ∧
      ((store.acquire deadline resource ownerId nowIso ttlMs).1 = .rangeError ∧
          (store.acquire deadline resource ownerId nowIso ttlMs).2 = store.nextFencingToken.2 ∨
        ∃ expiresAtIso, ∃ lease : DistributedLockLease,
          lease = { resource, ownerId, fencingToken := store.globalFencingCounter + 1,
                    acquiredAtIso := nowIso, expiresAtIso } ∧
          store.acquire deadline resource ownerId nowIso ttlMs =
            (.granted lease,
              { records := store.records.set resource
                  { lease, lastFencingToken := store.globalFencingCounter + 1 }
                globalFencingCounter := store.globalFencingCounter + 1 }))) := by
  unfold acquire
  cases hget : store.records.get? resource with
  | none =>
    refine Or.inr ⟨?_, ?_⟩
    · intro current h
      cases h
    · cases hdeadline : deadline nowIso ttlMs with
      | none => exact Or.inl ⟨rfl, rfl⟩
      | some expiresAtIso => exact Or.inr ⟨expiresAtIso, _, rfl, rfl⟩
  | some current =>
    by_cases hheld : current.lease.expiresAtIso > nowIso
    · exact Or.inl ⟨current, rfl, hheld, by simp only [if_pos hheld]⟩
    · refine Or.inr ⟨?_, ?_⟩
      · rintro current' h
        cases h
        exact Int.not_lt.mp hheld
      · simp only [if_neg hheld]
        cases hdeadline : deadline nowIso ttlMs with
        | none => exact Or.inl ⟨rfl, rfl⟩
        | some expiresAtIso => exact Or.inr ⟨expiresAtIso, _, rfl, rfl⟩

/-- **Renewals**: the deadline of the stored lease moves if the pair validates, or nothing
changes. -/
theorem renew_cases (resource ownerId : String) (fencingToken : Nat) (nowIso : Instant)
    (ttlMs : Ttl) :
    (∃ reason lease, store.renew deadline resource ownerId fencingToken nowIso ttlMs =
        (.refused reason lease, store)) ∨
    ∃ current, store.records.get? resource = some current ∧
      current.lease.fencingToken = fencingToken ∧
      (store.renew deadline resource ownerId fencingToken nowIso ttlMs = (.rangeError, store) ∨
        ∃ expiresAtIso, store.renew deadline resource ownerId fencingToken nowIso ttlMs =
          (.granted { current.lease with expiresAtIso },
            { store with
              records := store.records.set resource
                { current with lease := { current.lease with expiresAtIso } } })) := by
  unfold renew
  cases hget : store.records.get? resource with
  | none => exact Or.inl ⟨_, _, rfl⟩
  | some current =>
    cases hvalid : validateLease current.lease ownerId fencingToken nowIso with
    | error reason =>
      simp only [hvalid]
      exact Or.inl ⟨_, _, rfl⟩
    | ok _ =>
      have htoken := (validateLease_ok_iff.mp hvalid).2.2
      simp only [hvalid]
      refine Or.inr ⟨current, rfl, htoken, ?_⟩
      cases hdeadline : deadline nowIso ttlMs with
      | none => exact Or.inl rfl
      | some expiresAtIso => exact Or.inr ⟨expiresAtIso, rfl⟩

/-- **Releases**: the stored lease goes if the pair is its own, or nothing changes. -/
theorem release_cases (resource ownerId : String) (fencingToken : Nat) :
    (∃ reason lease,
        store.release resource ownerId fencingToken = (.refused reason lease, store)) ∨
    ∃ current, store.records.get? resource = some current ∧ current.lease.ownerId = ownerId ∧
      current.lease.fencingToken = fencingToken ∧
      store.release resource ownerId fencingToken =
        (.released, { store with records := store.records.erase resource }) := by
  unfold release
  cases hget : store.records.get? resource with
  | none => exact Or.inl ⟨_, _, rfl⟩
  | some current =>
    by_cases howner : current.lease.ownerId = ownerId
    · by_cases htoken : current.lease.fencingToken = fencingToken
      · exact Or.inr ⟨current, rfl, howner, htoken, by simp [howner, htoken]⟩
      · exact Or.inl ⟨.staleFencingToken, some current.lease, by simp [howner, htoken]⟩
    · exact Or.inl ⟨.ownerMismatch, some current.lease, by simp [howner]⟩

theorem validate_cases (resource ownerId : String) (fencingToken : Nat) (nowIso : Instant) :
    (∃ reason lease,
        store.validate resource ownerId fencingToken nowIso = .refused reason lease) ∨
    ∃ current, store.records.get? resource = some current ∧
      current.lease.fencingToken = fencingToken := by
  unfold validate
  cases hget : store.records.get? resource with
  | none => exact Or.inl ⟨_, _, rfl⟩
  | some current =>
    cases hvalid : validateLease current.lease ownerId fencingToken nowIso with
    | error reason =>
      simp only [hvalid]
      exact Or.inl ⟨_, _, rfl⟩
    | ok _ => exact Or.inr ⟨current, rfl, (validateLease_ok_iff.mp hvalid).2.2⟩

variable {deadline store}

/-- **Acquire and validate agree on the deadline**: where an acquisition is granted, no pair
validates at its instant. -/
theorem not_validates_of_acquire {resource ownerId : String} {nowIso : Instant} {ttlMs : Ttl}
    {lease : DistributedLockLease}
    (h : (store.acquire deadline resource ownerId nowIso ttlMs).1 = .granted lease)
    (owner : String) (token : Nat) : ¬ store.Validates resource owner token nowIso := by
  intro hvalid
  obtain ⟨current, hget, hnow, -, -⟩ := validates_iff.mp hvalid
  rcases acquire_cases deadline store resource ownerId nowIso ttlMs with
    ⟨_, _, _, heq⟩ | ⟨hfree, -⟩
  · rw [heq] at h
    cases h
  · exact absurd hnow (Int.not_lt.mpr (hfree current hget))

end Step

/-! ### The invariant of runs -/

/-- **The fencing invariant** of a store after the acquisitions `granted`. -/
structure Fenced (store : InMemoryDistributedLockStore) (granted : List DistributedLockLease) :
    Prop where
  /-- Tokens grow from one acquisition to the next, whatever their resources. -/
  increasing : granted.Pairwise fun earlier later => earlier.fencingToken < later.fencingToken
  /-- No token beyond the counter has been given out. -/
  bounded : ∀ lease ∈ granted, lease.fencingToken ≤ store.globalFencingCounter
  /-- A stored lease is at least as new as every acquisition of its resource. -/
  newest : ∀ resource current, store.records.get? resource = some current →
    ∀ lease ∈ granted, lease.resource = resource → lease.fencingToken ≤ current.lease.fencingToken

theorem fenced_start : Fenced {} [] where
  increasing := List.Pairwise.nil
  bounded := by simp
  newest := by simp

theorem Fenced.tick {store : InMemoryDistributedLockStore} {granted : List DistributedLockLease}
    (h : Fenced store granted) : Fenced store.nextFencingToken.2 granted where
  increasing := h.increasing
  bounded := fun lease hlease => Nat.le_succ_of_le (h.bounded lease hlease)
  newest := h.newest

/-- A granted acquisition takes the next token and becomes the record of its resource. -/
theorem Fenced.grant {store : InMemoryDistributedLockStore} {granted : List DistributedLockLease}
    (h : Fenced store granted) {lease : DistributedLockLease}
    (htoken : lease.fencingToken = store.globalFencingCounter + 1) (lastFencingToken : Nat) :
    Fenced
      { records := store.records.set lease.resource { lease, lastFencingToken }
        globalFencingCounter := store.globalFencingCounter + 1 }
      (granted ++ [lease]) where
  increasing := by
    refine List.pairwise_append.mpr ⟨h.increasing, List.pairwise_singleton _ _, ?_⟩
    intro earlier hearlier later hlater
    rw [List.mem_singleton.mp hlater, htoken]
    exact Nat.lt_succ_of_le (h.bounded earlier hearlier)
  bounded := by
    intro other hother
    rcases List.mem_append.mp hother with hold | hnew
    · exact Nat.le_succ_of_le (h.bounded other hold)
    · rw [List.mem_singleton.mp hnew]
      exact Nat.le_of_eq htoken
  newest := by
    intro resource current hget other hother hresource
    have hbound : other.fencingToken ≤ store.globalFencingCounter + 1 := by
      rcases List.mem_append.mp hother with hold | hnew
      · exact Nat.le_succ_of_le (h.bounded other hold)
      · rw [List.mem_singleton.mp hnew]
        exact Nat.le_of_eq htoken
    rw [Dict.get?_set] at hget
    split at hget
    · cases hget
      rw [htoken]
      exact hbound
    · rename_i hne
      rcases List.mem_append.mp hother with hold | hnew
      · exact h.newest resource current hget other hold hresource
      · rw [List.mem_singleton.mp hnew] at hresource
        exact absurd hresource.symm hne

/-- A renewal keeps the token of the record. -/
theorem Fenced.renewed {store : InMemoryDistributedLockStore}
    {granted : List DistributedLockLease} (h : Fenced store granted) {resource : String}
    {current renewed : LockRecord} (hget : store.records.get? resource = some current)
    (htoken : renewed.lease.fencingToken = current.lease.fencingToken) :
    Fenced { store with records := store.records.set resource renewed } granted where
  increasing := h.increasing
  bounded := h.bounded
  newest := by
    intro resource' current' hget' lease hlease hresource
    rw [Dict.get?_set] at hget'
    split at hget'
    · rename_i heq
      cases hget'
      rw [htoken]
      exact h.newest resource current hget lease hlease (hresource.trans heq)
    · exact h.newest resource' current' hget' lease hlease hresource

theorem Fenced.erased {store : InMemoryDistributedLockStore} {granted : List DistributedLockLease}
    (h : Fenced store granted) (resource : String) :
    Fenced { store with records := store.records.erase resource } granted where
  increasing := h.increasing
  bounded := h.bounded
  newest := by
    intro resource' current hget lease hlease hresource
    rw [Dict.get?_erase] at hget
    split at hget
    · cases hget
    · exact h.newest resource' current hget lease hlease hresource

section Runs

variable {Ttl : Type} {deadline : Instant → Ttl → Option Instant}
  {store : InMemoryDistributedLockStore} {history : List (LockCall Ttl × LockReply)}

theorem acquisitions_append (history : List (LockCall Ttl × LockReply))
    (entry : LockCall Ttl × LockReply) :
    acquisitions (history ++ [entry]) = acquisitions history ++ (acquisition entry).toList := by
  unfold acquisitions
  rw [List.filterMap_append]
  cases h : acquisition entry <;> simp [h]

/-- Every call keeps the invariant. -/
theorem Fenced.call (h : Fenced store (acquisitions history)) (c : LockCall Ttl) :
    Fenced (store.call deadline c).2
      (acquisitions (history ++ [(c, (store.call deadline c).1)])) := by
  rw [acquisitions_append]
  cases c with
  | acquire resource ownerId nowIso ttlMs =>
    show Fenced (store.acquire deadline resource ownerId nowIso ttlMs).2 _
    rcases acquire_cases deadline store resource ownerId nowIso ttlMs with
      ⟨current, -, -, heq⟩ | ⟨-, ⟨hreply, hstore⟩ | ⟨expiresAtIso, lease, hlease, heq⟩⟩
    · simp only [InMemoryDistributedLockStore.call, heq, acquisition, Option.toList_none,
        List.append_nil]
      exact h
    · simp only [InMemoryDistributedLockStore.call, hreply, hstore, acquisition,
        Option.toList_none, List.append_nil]
      exact h.tick
    · simp only [InMemoryDistributedLockStore.call, heq, acquisition, Option.toList_some]
      have hresource : lease.resource = resource := by rw [hlease]
      rw [← hresource]
      exact h.grant (by rw [hlease]) _
  | renew resource ownerId fencingToken nowIso ttlMs =>
    simp only [acquisition, Option.toList_none, List.append_nil]
    rcases renew_cases deadline store resource ownerId fencingToken
      nowIso ttlMs with ⟨reason, lease, heq⟩ | ⟨current, hget, -, heq | ⟨expiresAtIso, heq⟩⟩
    · simp only [InMemoryDistributedLockStore.call, heq]
      exact h
    · simp only [InMemoryDistributedLockStore.call, heq]
      exact h
    · simp only [InMemoryDistributedLockStore.call, heq]
      exact h.renewed hget rfl
  | release resource ownerId fencingToken =>
    simp only [acquisition, Option.toList_none, List.append_nil]
    rcases release_cases store resource ownerId fencingToken with
      ⟨reason, lease, heq⟩ | ⟨current, -, -, -, heq⟩
    · simp only [InMemoryDistributedLockStore.call, heq]
      exact h
    · simp only [InMemoryDistributedLockStore.call, heq]
      exact h.erased resource
  | validate resource ownerId fencingToken nowIso =>
    simp only [acquisition, Option.toList_none, List.append_nil]
    exact h

/-- **The invariant holds in every run.** -/
theorem Run.fenced (run : Run deadline store history) : Fenced store (acquisitions history) := by
  induction run with
  | start => exact fenced_start
  | call run c ih => exact ih.call c

/-- **A token older than an acquisition of its resource is refused** and changes nothing. -/
theorem Fenced.refuses {granted : List DistributedLockLease} (h : Fenced store granted)
    {lease : DistributedLockLease} (hlease : lease ∈ granted) {c : LockCall Ttl}
    (hresource : c.resource = lease.resource) {token : Nat} (htoken : c.fencingToken = some token)
    (hold : token < lease.fencingToken) :
    (∃ reason current, (store.call deadline c).1 = .refused reason current) ∧
      (store.call deadline c).2 = store := by
  have hfresh : ∀ current, store.records.get? c.resource = some current →
      current.lease.fencingToken ≠ token := by
    intro current hget heq
    have hle := h.newest c.resource current hget lease hlease hresource.symm
    omega
  cases c with
  | acquire resource ownerId nowIso ttlMs => cases htoken
  | renew resource ownerId fencingToken nowIso ttlMs =>
    cases htoken
    rcases renew_cases deadline store resource ownerId token nowIso
      ttlMs with ⟨reason, current, heq⟩ | ⟨current, hget, heq, -⟩
    · simp only [InMemoryDistributedLockStore.call, heq]
      exact ⟨⟨_, _, rfl⟩, trivial⟩
    · exact absurd heq (hfresh current hget)
  | release resource ownerId fencingToken =>
    cases htoken
    rcases release_cases store resource ownerId token with
      ⟨reason, current, heq⟩ | ⟨current, hget, -, heq, -⟩
    · simp only [InMemoryDistributedLockStore.call, heq]
      exact ⟨⟨_, _, rfl⟩, trivial⟩
    · exact absurd heq (hfresh current hget)
  | validate resource ownerId fencingToken nowIso =>
    cases htoken
    rcases validate_cases store resource ownerId token nowIso with
      ⟨reason, current, heq⟩ | ⟨current, hget, heq⟩
    · simp only [InMemoryDistributedLockStore.call, heq]
      exact ⟨⟨_, _, rfl⟩, trivial⟩
    · exact absurd heq (hfresh current hget)

end Runs

end InMemoryDistributedLockStore

end AiOrchestrator
