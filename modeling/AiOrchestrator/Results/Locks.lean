import AiOrchestrator.Locks.Etcd
import AiOrchestrator.Locks.Postgres
import AiOrchestrator.Locks.Redis

/-!
# Exclusion and fencing

What the lock stores guarantee over whole runs.
-/

namespace AiOrchestrator

namespace InMemoryDistributedLockStore

/-- **The in-memory store excludes and fences.** In every run, whatever the time stamps and the
times to live: one pair of owner and token at most validates for a resource; tokens grow from
one acquisition to the next; an acquisition is granted only where no pair validates any more;
and a call with a token older than an acquisition of the resource is refused and changes
nothing. -/
theorem exclusion_and_fencing {Ttl : Type} {deadline : Instant → Ttl → Option Instant}
    {store : InMemoryDistributedLockStore} {history : List (LockCall Ttl × LockReply)}
    (run : Run deadline store history) :
    (∀ resource nowIso owner token owner' token', store.Validates resource owner token nowIso →
      store.Validates resource owner' token' nowIso → owner = owner' ∧ token = token') ∧
    (acquisitions history).Pairwise
      (fun earlier later => earlier.fencingToken < later.fencingToken) ∧
    (∀ resource ownerId nowIso ttlMs lease,
      (store.acquire deadline resource ownerId nowIso ttlMs).1 = .granted lease →
      ∀ owner token, ¬ store.Validates resource owner token nowIso) ∧
    ∀ lease ∈ acquisitions history, ∀ (c : LockCall Ttl) token, c.resource = lease.resource →
      c.fencingToken = some token → token < lease.fencingToken →
      (∃ reason current, (store.call deadline c).1 = .refused reason current) ∧
        (store.call deadline c).2 = store := by
  refine ⟨?_, run.fenced.increasing, ?_, ?_⟩
  · -- both pairs are the pair of the one stored lease
    intro resource nowIso owner token owner' token' hvalid hvalid'
    obtain ⟨current, hget, -, howner, htoken⟩ := validates_iff.mp hvalid
    obtain ⟨current', hget', -, howner', htoken'⟩ := validates_iff.mp hvalid'
    obtain rfl : current = current' := Option.some.inj (hget.symm.trans hget')
    exact ⟨howner.symm.trans howner', htoken.symm.trans htoken'⟩
  · intro resource ownerId nowIso ttlMs lease h owner token
    exact not_validates_of_acquire h owner token
  · intro lease hlease c token hresource htoken hold
    exact run.fenced.refuses hlease hresource htoken hold

/-- An acquisition at the instant at which the first lease runs out: the first owner can no
longer release. -/
theorem exclusion_and_fencing_takeover :
    let deadline : Instant → Nat → Option Instant := fun now ttl => some (now + ttl)
    let first : LockCall Nat := .acquire "run" "a" 0 10
    let second : LockCall Nat := .acquire "run" "b" 10 10
    let store := (((({} : InMemoryDistributedLockStore).call deadline first).2).call
      deadline second).2
    (∃ reason current, (store.call deadline (.release "run" "a" 1)).1 = .refused reason current) ∧
      (store.call deadline (.release "run" "a" 1)).2 = store := by
  intro deadline first second store
  have run := (Run.start.call first : Run deadline _ _).call second
  exact (exclusion_and_fencing run).2.2.2 ⟨"run", "b", 2, 10, 20⟩ (by decide) _ 1 rfl rfl
    (by decide)

end InMemoryDistributedLockStore

/-- Deadlines in whole milliseconds. -/
def wholeDeadline (nowIso : Instant) (ttlMs : Nat) : Option Instant := some (nowIso + ttlMs)

namespace Redis

/-- **Redis tokens grow unless an acquisition is overtaken.** In every interleaving of any calls
on a resource, the tokens of the acquisitions grow in the order in which these take effect if and
only if no acquisition runs both its `INCR` and its successful `SET NX` between the `INCR` and
the successful `SET NX` of another one. -/
theorem tokens_grow_iff {ι Ttl : Type} [DecidableEq ι]
    {deadline : Instant → Ttl → Option Instant} {calls : ι → LockCall Ttl} {counter : Nat}
    {lease : Option DistributedLockLease} {moves : List (Move ι Unit Unit)}
    {q : Pool ι Command Command.Ans LockReply (State ι)}
    (run : (start deadline calls counter lease).run server moves = some q) :
    (q.state.granted.map Prod.snd).Pairwise (· < ·) ↔
      ¬ ∃ i j, [.drew i, .drew j, .took j, .took i].Sublist q.state.history :=
  (ordered_of_run run).increasing

/-- Two owners and a release by the second one, which has the token 2. -/
def twoOwners : Fin 3 → LockCall Nat
  | 0 => .acquire "run" "a" 0 10
  | 1 => .acquire "run" "b" 0 10
  | 2 => .release "run" "b" 2

/-- Both tokens are drawn first; the first owner takes the lease, it expires, and the second
owner takes it. -/
theorem tokens_grow_iff_expiry :
    ∃ q, (start wholeDeadline twoOwners 0 none).run server
        [.client 0 (), .client 1 (), .client 0 (), .drift (), .client 1 ()] = some q ∧
      q.state.granted = [(0, 1), (1, 2)] ∧
      (q.state.granted.map Prod.snd).Pairwise (· < ·) := by
  have run : (start wholeDeadline twoOwners 0 none).run server
      [.client 0 (), .client 1 (), .client 0 (), .drift (), .client 1 ()] = some _ := rfl
  exact ⟨_, run, rfl, (tokens_grow_iff run).mpr (by decide)⟩

/-- **A stale token can be the larger one**: the second owner draws the larger token, takes the
lease and releases it before the first owner, which drew the smaller one, takes effect. -/
theorem token_order_broken :
    ∃ q, (start wholeDeadline twoOwners 0 none).run server
        [.client 0 (), .client 1 (), .client 1 (), .client 2 (), .client 2 (), .client 0 ()] =
          some q ∧
      q.state.granted = [(1, 2), (0, 1)] ∧
      ¬ (q.state.granted.map Prod.snd).Pairwise (· < ·) := by
  refine ⟨_, rfl, rfl, ?_⟩
  decide

end Redis

namespace Contention

/-- **PostgreSQL and etcd respect the holder unless a call is overtaken.** In every interleaving
of any calls on a resource, with time and expiry in between, each statement of a call that is not
overtaken (no other call has put the stored lease since the call read the record) leaves an
unexpired lease of a different owner unchanged; if the call presents a token, it neither deletes
nor replaces a lease with another one; and if it acquires, it replaces no unexpired lease of
another call. **Acquisitions do not overlap** where, besides, etcd removes no lease before the
deadline in its record. -/
theorem holder_respected {ι Ttl : Type} [DecidableEq ι]
    (deadline : Instant → Ttl → Option Instant) (resource : String)
    (requests : ι → LockRequest Ttl) (lease : Option DistributedLockLease) (now : Instant)
    (counter : Nat) :
    (∀ moves q,
      (Postgres.start deadline resource requests lease now counter).run
        (Postgres.service.server requests) moves = some q →
      (∀ i c r, q.move (Postgres.service.server requests) (.client i c) = some r →
        q.state.overtaken i = false → Respects Postgres.service (requests i) i q.state r.state) ∧
      (Pool.Along (Postgres.service.server requests) (Undisturbed Postgres.service requests)
        (Postgres.start deadline resource requests lease now counter) moves → Apart requests q)) ∧
    ∀ moves q,
      (Etcd.start deadline resource requests lease now counter).run
        (Etcd.service.server requests) moves = some q →
      (∀ i c r, q.move (Etcd.service.server requests) (.client i c) = some r →
        q.state.overtaken i = false → Respects Etcd.service (requests i) i q.state r.state) ∧
      (Pool.Along (Etcd.service.server requests) (Undisturbed Etcd.service requests)
        (Etcd.start deadline resource requests lease now counter) moves → Apart requests q) := by
  constructor
  · intro moves q run
    have hsafe := @Postgres.start_safe ι Ttl _ requests deadline resource lease now counter
    -- The row does not vanish by itself.
    have hexpire : ∀ db db' : Postgres.Row ι, Postgres.service.expire db = some db' →
        Postgres.service.stored db' = none ∧ ∀ j, Postgres.Keep j db db' := by
      intro db db' h
      cases h
    refine ⟨fun i c r step hfree => ?_, fun hundisturbed => ?_⟩
    · exact respects_of_run hexpire Postgres.Keep.refl hsafe run step hfree
    · exact apart_of_run hexpire Postgres.Keep.refl hsafe (held_start _ now) hundisturbed run
  · intro moves q run
    have hsafe := @Etcd.start_safe ι Ttl _ requests deadline resource lease now counter
    -- A key that etcd removes leaves nothing stored.
    have hexpire : ∀ db db' : Etcd.Key, (Etcd.service (ι := ι)).expire db = some db' →
        (Etcd.service (ι := ι)).stored db' = none ∧ ∀ j : ι, Etcd.Keep j db db' := by
      intro db db' h
      obtain rfl := Option.some.inj h
      exact ⟨rfl, fun _ => trivial⟩
    refine ⟨fun i c r step hfree => ?_, fun hundisturbed => ?_⟩
    · exact respects_of_run hexpire (fun _ _ => trivial) hsafe run step hfree
    · exact apart_of_run hexpire (fun _ _ => trivial) hsafe (held_start _ now) hundisturbed run

/-- Two owners that acquire for a time to live. -/
def rivals (ttlMs : Nat) : Fin 2 → LockRequest Nat
  | 0 => .acquire "a" ttlMs
  | 1 => .acquire "b" ttlMs

/-- A holder that releases its token 5, and another owner that acquires. -/
def successor : Fin 2 → LockRequest Nat
  | 0 => .release "a" 5
  | 1 => .acquire "b" 10

/-- The lease that the holder of `successor` releases. -/
def heldLease : DistributedLockLease :=
  { resource := "run", ownerId := "a", fencingToken := 5, acquiredAtIso := 0, expiresAtIso := 10 }

/-- The moves of the call `i`, all of which are answered. -/
def steps (i : Fin 2) (n : Nat) : List (Move (Fin 2) Fate Drift) :=
  List.replicate n (.client i .answered)

/-- One owner acquires in etcd, its key is removed after `ms` milliseconds, and the other owner
acquires. -/
def removedAfter (ms : Nat) : List (Move (Fin 2) Fate Drift) :=
  steps 0 3 ++ [.drift (.tick ms), .drift .expire] ++ steps 1 3

/-- PostgreSQL: the first owner commits before the second one begins, which is refused. etcd: the
key is removed at its deadline, and both owners acquire, one after the other. -/
theorem holder_respected_in_turn :
    (∃ q r, (Postgres.start wholeDeadline "run" (rivals 10) none 0 0).run
        (Postgres.service.server (rivals 10)) (steps 0 7 ++ steps 1 4) = some q ∧
      q.move (Postgres.service.server (rivals 10)) (.client 1 .answered) = some r ∧
      Respects Postgres.service (rivals 10 1) 1 q.state r.state) ∧
    ∃ q, (Etcd.start wholeDeadline "run" (rivals 1000) none 0 0).run
        (Etcd.service.server (rivals 1000)) (removedAfter 1000) = some q ∧
      q.threads 0 = .ret (.ok (.granted ⟨"run", "a", 1, 0, 1000⟩)) ∧
      q.threads 1 = .ret (.ok (.granted ⟨"run", "b", 4, 1000, 2000⟩)) ∧ Apart (rivals 1000) q := by
  constructor
  · have run : (Postgres.start wholeDeadline "run" (rivals 10) none 0 0).run
        (Postgres.service.server (rivals 10)) (steps 0 7 ++ steps 1 4) = some _ := rfl
    exact ⟨_, _, run, rfl,
      ((holder_respected wholeDeadline "run" (rivals 10) none 0 0).1 _ _ run).1 1 .answered _ rfl rfl⟩
  · have run : (Etcd.start wholeDeadline "run" (rivals 1000) none 0 0).run
        (Etcd.service.server (rivals 1000)) (removedAfter 1000) = some _ := rfl
    have hchecked : (Etcd.start wholeDeadline "run" (rivals 1000) none 0 0).checkAll
        (Etcd.service.server (rivals 1000)) (undisturbedMove Etcd.service (rivals 1000))
        (removedAfter 1000) = true := by decide
    have hundisturbed := Pool.along_of_checkAll (fun _ _ => undisturbed_of_move) hchecked
    refine ⟨_, run, rfl, rfl, ?_⟩
    exact ((holder_respected wholeDeadline "run" (rivals 1000) none 0 0).2 _ _ run).2 hundisturbed

/-- **Holders are overwritten.** PostgreSQL: both owners find no row, so that neither locks it,
and the second commit replaces the lease of the first owner. etcd: the holder has validated when
its key expires and another owner acquires; the deletion takes the lease of the new owner. **And
acquisitions overlap**: the key of a lease for 1500 milliseconds lives one second. -/
theorem holder_overwritten :
    (∃ q r, (Postgres.start wholeDeadline "run" (rivals 10) none 0 0).run
        (Postgres.service.server (rivals 10))
        (steps 0 4 ++ steps 1 4 ++ steps 0 3 ++ steps 1 2) = some q ∧
      q.move (Postgres.service.server (rivals 10)) (.client 1 .answered) = some r ∧
      ¬ Respects Postgres.service (rivals 10 1) 1 q.state r.state) ∧
    (∃ q r, (Etcd.start wholeDeadline "run" successor (some heldLease) 0 7).run
        (Etcd.service.server successor)
        (steps 0 3 ++ [.drift .expire] ++ steps 1 3) = some q ∧
      q.move (Etcd.service.server successor) (.client 0 .answered) = some r ∧
      ¬ Respects Etcd.service (successor 0) 0 q.state r.state) ∧
    ∃ q, (Etcd.start wholeDeadline "run" (rivals 1500) none 0 0).run
        (Etcd.service.server (rivals 1500)) (removedAfter 1000) = some q ∧
      ¬ Apart (rivals 1500) q := by
  refine ⟨⟨_, _, rfl, rfl, fun h => ?_⟩, ⟨_, _, rfl, rfl, fun h => ?_⟩, ⟨_, rfl, fun h => ?_⟩⟩
  · have hkept := h.holder ⟨"run", "a", 1, 0, 10⟩ rfl (by decide) (by decide)
    have howner := congrArg DistributedLockLease.ownerId (Option.some.inj hkept)
    exact absurd howner (by decide)
  · have hkept := h.holder ⟨"run", "b", 9, 0, 10⟩ rfl (by decide) (by decide)
    cases hkept
  · refine h.valid 0 1 _ _ (by decide) rfl rfl rfl rfl ⟨⟨1500, rfl, ?_⟩, ⟨2500, rfl, ?_⟩⟩
    · decide
    · decide

end Contention

end AiOrchestrator
