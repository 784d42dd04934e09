import AiOrchestrator.Lib.Interleave
import AiOrchestrator.State.Locks
import Mathlib.Data.List.Sublists

/-!
# The Redis lock store

`RedisDistributedLockStore` (`packages/execution/src/locks/distributed-lock-store-factory.ts`)
for one resource. Each call is a program over Redis commands; a command is atomic, and the
commands of different calls interleave. A client that makes several calls is several programs.

The key of the lease may expire at any moment. A command that fails ends its call, which is a
run in which the call makes no further move.

Besides the two keys the state records, for the statements only, in which order the commands
`INCR` and successful `SET NX` of the acquisitions took place (`history`) and the tokens of the
acquisitions that took effect (`granted`).
-/

namespace AiOrchestrator

namespace Redis

/-- The commands on the two keys of a resource. -/
inductive Command
  /-- `INCR` on the counter. -/
  | incr
  /-- `SET` with `NX` and `PX` on the lease. -/
  | setNx (lease : DistributedLockLease)
  | get
  /-- The script of `renew`. -/
  | replaceIf (current next : DistributedLockLease)
  /-- The script of `release`. -/
  | deleteIf (current : DistributedLockLease)
  /-- The script of `validate`. -/
  | compare (current : DistributedLockLease)

/-- What a command answers; the scripts and `SET` say whether they succeeded. -/
def Command.Ans : Command → Type
  | incr => Nat
  | get => Option DistributedLockLease
  | setNx _ | replaceIf _ _ | deleteIf _ | compare _ => Bool

/-- The two commands of an acquisition that matter for the order of tokens. -/
inductive Event (ι : Type)
  /-- `INCR`. -/
  | drew (i : ι)
  /-- A `SET NX` that found no key. -/
  | took (i : ι)
deriving DecidableEq

def Event.client {ι : Type} : Event ι → ι
  | drew i | took i => i

def Event.isDraw {ι : Type} : Event ι → Bool
  | drew _ => true
  | took _ => false

structure State (ι : Type) where
  counter : Nat
  lease : Option DistributedLockLease
  history : List (Event ι)
  granted : List (ι × Nat)

section Semantics

variable {ι : Type}

/-- The effect of a command issued by the call `i`. -/
def serve (i : ι) : (o : Command) → State ι → o.Ans × State ι
  | .incr, s =>
    (s.counter + 1, { s with counter := s.counter + 1, history := s.history ++ [.drew i] })
  | .setNx lease, s =>
    match s.lease with
    | none =>
      (true, { s with
        lease := some lease
        history := s.history ++ [.took i]
        granted := s.granted ++ [(i, lease.fencingToken)] })
    | some _ => (false, s)
  | .get, s => (s.lease, s)
  | .replaceIf current next, s =>
    if s.lease = some current then (true, { s with lease := some next }) else (false, s)
  | .deleteIf current, s =>
    if s.lease = some current then (true, { s with lease := none }) else (false, s)
  | .compare current, s => (decide (s.lease = some current), s)

/-- Redis. The key of the lease may expire. -/
def server : Server ι Command Command.Ans (State ι) Unit Unit where
  serve i _ o s := some (serve i o s)
  drift _ s := some { s with lease := none }

end Semantics

section Calls

variable {Ttl : Type} (deadline : Instant → Ttl → Option Instant)

/-- Issue a command. -/
def command (o : Command) : Prog Command Command.Ans o.Ans := Prog.perform o

/-- **`acquire`**. -/
def acquire (resource ownerId : String) (nowIso : Instant) (ttlMs : Ttl) :
    Prog Command Command.Ans LockReply := do
  let token : Nat ← command .incr
  match deadline nowIso ttlMs with
  | none => pure .rangeError
  | some expiresAtIso => do
    let lease := asLease resource ownerId nowIso expiresAtIso token
    let acquired : Bool ← command (.setNx lease)
    if acquired then pure (.granted lease)
    else do
      let current : Option DistributedLockLease ← command .get
      pure (.refused .alreadyLocked (some (current.getD lease)))

/-- **`renew`**. -/
def renew (ownerId : String) (fencingToken : Nat) (nowIso : Instant) (ttlMs : Ttl) :
    Prog Command Command.Ans LockReply := do
  let current : Option DistributedLockLease ← command .get
  match current with
  | none => pure (.refused .missingLock none)
  | some cur =>
    match validateLease cur ownerId fencingToken nowIso, deadline nowIso ttlMs with
    | .error reason, _ => pure (.refused reason (some cur))
    | .ok (), none => pure .rangeError
    | .ok (), some expiresAtIso => do
      let renewedLease := renewLease cur expiresAtIso
      let renewed : Bool ← command (.replaceIf cur renewedLease)
      if renewed then pure (.granted renewedLease)
      else pure (.refused .staleFencingToken (some cur))

/-- **`release`**. -/
def release (ownerId : String) (fencingToken : Nat) : Prog Command Command.Ans LockReply := do
  let current : Option DistributedLockLease ← command .get
  match current with
  | none => pure (.refused .missingLock none)
  | some cur =>
    if cur.ownerId ≠ ownerId then pure (.refused .ownerMismatch (some cur))
    else if cur.fencingToken ≠ fencingToken then pure (.refused .staleFencingToken (some cur))
    else do
      let deleted : Bool ← command (.deleteIf cur)
      if deleted then pure .released else pure (.refused .staleFencingToken (some cur))

/-- **`validate`**. -/
def validate (ownerId : String) (fencingToken : Nat) (nowIso : Instant) :
    Prog Command Command.Ans LockReply := do
  let current : Option DistributedLockLease ← command .get
  match current with
  | none => pure (.refused .missingLock none)
  | some cur =>
    match validateLease cur ownerId fencingToken nowIso with
    | .error reason => pure (.refused reason (some cur))
    | .ok () => do
      let unchanged : Bool ← command (.compare cur)
      if unchanged then pure (.granted cur)
      else pure (.refused .staleFencingToken (some cur))

/-- The program of a call. -/
def call : LockCall Ttl → Prog Command Command.Ans LockReply
  | .acquire resource ownerId nowIso ttlMs => acquire deadline resource ownerId nowIso ttlMs
  | .renew _ ownerId fencingToken nowIso ttlMs => renew deadline ownerId fencingToken nowIso ttlMs
  | .release _ ownerId fencingToken => release ownerId fencingToken
  | .validate _ ownerId fencingToken nowIso => validate ownerId fencingToken nowIso

/-- The calls `calls` before their first command, on a store whose counter is at `counter`. -/
def start {ι : Type} (calls : ι → LockCall Ttl) (counter : Nat)
    (lease : Option DistributedLockLease) : Pool ι Command Command.Ans LockReply (State ι) where
  threads i := call deadline (calls i)
  state := { counter, lease, history := [], granted := [] }

end Calls

/-! ### Order of commands and order of tokens -/

section Order

variable {ι : Type}

/-- The number of tokens drawn in a history. -/
def draws (history : List (Event ι)) : Nat := history.countP Event.isDraw

@[simp] theorem draws_nil : draws ([] : List (Event ι)) = 0 := rfl

@[simp] theorem draws_append (h h' : List (Event ι)) : draws (h ++ h') = draws h + draws h' :=
  List.countP_append

@[simp] theorem draws_drew (i : ι) (h : List (Event ι)) : draws (.drew i :: h) = draws h + 1 :=
  List.countP_cons_of_pos rfl

@[simp] theorem draws_took (i : ι) (h : List (Event ι)) : draws (.took i :: h) = draws h :=
  List.countP_cons_of_neg (by simp [Event.isDraw])

/-- The call `i` drew the token `n` from a counter that started at `base`. -/
def Drew (base : Nat) (history : List (Event ι)) (i : ι) (n : Nat) : Prop :=
  ∃ before after, history = before ++ .drew i :: after ∧ n = base + draws before + 1

/-- **Overtaking**: after the call `i` has drawn its token, the call `j` both draws one and takes
effect. -/
def Overtakes (history : List (Event ι)) (i j : ι) : Prop :=
  [.drew i, .drew j, .took j].Sublist history

variable {base : Nat} {history : List (Event ι)} {i j : ι} {n m : Nat}

theorem Drew.append (h : Drew base history i n) (events : List (Event ι)) :
    Drew base (history ++ events) i n := by
  obtain ⟨before, after, rfl, hn⟩ := h
  exact ⟨before, after ++ events, by simp, hn⟩

/-- Of two draws the one with fewer draws before it comes first. -/
theorem split_of_draws_lt {before after before' after' : List (Event ι)}
    (h : before ++ .drew i :: after = before' ++ .drew j :: after')
    (hlt : draws before < draws before') : ∃ mid, before' = before ++ .drew i :: mid := by
  rcases List.append_eq_append_iff.mp h with ⟨mid, hbefore, hmid⟩ | ⟨mid, hbefore, -⟩
  · cases mid with
    | nil =>
      rw [hbefore, List.append_nil] at hlt
      omega
    | cons e mid =>
      obtain rfl : .drew i = e := (List.cons.inj hmid).1
      exact ⟨mid, hbefore⟩
  · rw [hbefore, draws_append] at hlt
    omega

/-- Each draw has its own number of draws before it. -/
theorem eq_of_draws_eq {before after before' after' : List (Event ι)}
    (h : before ++ .drew i :: after = before' ++ .drew j :: after')
    (heq : draws before = draws before') : i = j := by
  rcases List.append_eq_append_iff.mp h with ⟨mid, hbefore, hmid⟩ | ⟨mid, hbefore, hmid⟩
  · cases mid with
    | nil => exact Event.drew.inj (List.cons.inj hmid).1
    | cons e mid =>
      obtain rfl : .drew i = e := (List.cons.inj hmid).1
      rw [hbefore, draws_append, draws_drew] at heq
      omega
  · cases mid with
    | nil => exact (Event.drew.inj (List.cons.inj hmid).1).symm
    | cons e mid =>
      obtain rfl : .drew j = e := (List.cons.inj hmid).1
      rw [hbefore, draws_append, draws_drew] at heq
      omega

/-- Tokens are given to one call each. -/
theorem Drew.unique (hi : Drew base history i n) (hj : Drew base history j n) : i = j := by
  obtain ⟨before, after, rfl, hn⟩ := hi
  obtain ⟨before', after', heq, hm⟩ := hj
  exact eq_of_draws_eq heq (by omega)

/-- In a list without repetitions what follows an element stands after it. -/
theorem mem_after_of_sublist {α : Type} {a b : α} {before after : List α}
    (hnodup : (before ++ a :: after).Nodup) (h : [a, b].Sublist (before ++ a :: after)) :
    b ∈ after := by
  obtain ⟨-, hafter, hdisjoint⟩ := List.nodup_append.mp hnodup
  obtain ⟨first, second, heq, hfirst, hsecond⟩ := List.sublist_append_iff.mp h
  cases first with
  | nil =>
    rw [List.nil_append] at heq
    rw [← heq] at hsecond
    exact List.singleton_sublist.mp (List.cons_sublist_cons.mp hsecond)
  | cons e first =>
    obtain ⟨rfl, -⟩ := List.cons.inj heq
    exact absurd rfl (hdisjoint a (hfirst.subset List.mem_cons_self) a List.mem_cons_self)

/-- **Larger tokens are drawn later**, in a history without repetitions. -/
theorem Drew.lt_iff (hnodup : history.Nodup) (hi : Drew base history i n)
    (hj : Drew base history j m) : n < m ↔ [.drew i, .drew j].Sublist history := by
  obtain ⟨before, after, rfl, hn⟩ := hi
  obtain ⟨before', after', heq, hm⟩ := hj
  constructor
  · intro hlt
    obtain ⟨mid, rfl⟩ := split_of_draws_lt heq (by omega)
    have hfirst : [Event.drew i].Sublist (before ++ .drew i :: mid) := by simp
    have hsecond : [Event.drew j].Sublist (.drew j :: after') := by simp
    rw [heq]
    exact hfirst.append hsecond
  · intro hsub
    have hlater := mem_after_of_sublist hnodup hsub
    obtain ⟨-, hafter, hdisjoint⟩ := List.nodup_append.mp hnodup
    by_contra hle
    rcases Nat.lt_or_eq_of_le (Nat.not_lt.mp hle) with hlt | hsame
    · -- then `drew j` would stand on both sides of `drew i`
      obtain ⟨mid, rfl⟩ := split_of_draws_lt heq.symm (by omega)
      exact hdisjoint (.drew j) (by simp) (.drew j) (List.mem_cons_of_mem _ hlater) rfl
    · obtain rfl := eq_of_draws_eq heq (by omega)
      exact absurd hlater (List.nodup_cons.mp hafter).1

/-- A call that has taken effect with a larger token overtook. -/
theorem overtakes_iff {before after : List (Event ι)} (hnodup : history.Nodup)
    (hi : Drew base history i n) (hhistory : history = before ++ .took j :: after)
    (hj : Drew base before j m) : Overtakes history i j ↔ n < m := by
  have hj' : Drew base history j m := by
    rw [hhistory]
    exact hj.append _
  constructor
  · intro h
    have hpair : [Event.drew i, .drew j].Sublist [.drew i, .drew j, .took j] := by simp
    exact (hi.lt_iff hnodup hj').mpr (hpair.trans h)
  · intro hlt
    obtain ⟨beforeI, afterI, hhistory', hn⟩ := hi
    obtain ⟨beforeJ, afterJ, rfl, hm⟩ := hj
    have heq : beforeI ++ .drew i :: afterI =
        beforeJ ++ .drew j :: (afterJ ++ .took j :: after) := by
      rw [← hhistory', hhistory, List.append_assoc, List.cons_append]
    obtain ⟨mid, rfl⟩ := split_of_draws_lt heq (by omega)
    have hfirst : [Event.drew i].Sublist (beforeI ++ .drew i :: mid) := by simp
    have hsecond : [Event.drew j].Sublist (.drew j :: afterJ) := by simp
    have hthird : [Event.took j].Sublist (.took j :: after) := by simp
    rw [hhistory]
    exact (hfirst.append hsecond).append hthird

theorem concat_sublist_concat {α : Type} (a b : α) (l l' : List α) :
    (l ++ [a]).Sublist (l' ++ [b]) ↔ (l ++ [a]).Sublist l' ∨ a = b ∧ l.Sublist l' := by
  constructor
  · intro h
    obtain ⟨first, second, heq, hfirst, hsecond⟩ := List.sublist_append_iff.mp h
    rcases List.sublist_singleton.mp hsecond with rfl | rfl
    · rw [List.append_nil] at heq
      exact Or.inl (heq ▸ hfirst)
    · obtain ⟨rfl, hab⟩ := List.append_inj' heq rfl
      exact Or.inr ⟨(List.cons.inj hab).1, hfirst⟩
  · rintro (h | ⟨rfl, h⟩)
    · exact h.trans (List.sublist_append_left _ _)
    · exact h.append (List.Sublist.refl _)

/-- **The order of tokens** in a state reached from a counter at `base`. -/
structure Ordered (base : Nat) (s : State ι) : Prop where
  counter : s.counter = base + draws s.history
  /-- A call draws and takes effect once at most. -/
  nodup : s.history.Nodup
  granted : ∀ i n, (i, n) ∈ s.granted →
    ∃ before after, s.history = before ++ .took i :: after ∧ Drew base before i n
  took : ∀ i, .took i ∈ s.history → ∃ n, (i, n) ∈ s.granted
  increasing : (s.granted.map Prod.snd).Pairwise (· < ·) ↔
    ¬ ∃ i j, [.drew i, .drew j, .took j, .took i].Sublist s.history

variable {s : State ι}

/-- The lease plays no role in the order. -/
theorem Ordered.setLease (h : Ordered base s) (lease : Option DistributedLockLease) :
    Ordered base { s with lease } where
  counter := h.counter
  nodup := h.nodup
  granted := h.granted
  took := h.took
  increasing := h.increasing

theorem Ordered.draw (h : Ordered base s) (hi : .drew i ∉ s.history) :
    Ordered base { s with counter := s.counter + 1, history := s.history ++ [.drew i] } where
  counter := by
    show s.counter + 1 = base + draws (s.history ++ [.drew i])
    rw [draws_append, draws_drew, draws_nil, h.counter]
    omega
  nodup := List.nodup_append.mpr ⟨h.nodup, by simp, by
    intro e he e' he' heq
    rw [List.mem_singleton.mp he'] at heq
    exact hi (heq ▸ he)⟩
  granted := by
    intro j m hj
    obtain ⟨before, after, hhistory, hdrew⟩ := h.granted j m hj
    exact ⟨before, after ++ [.drew i], by simp [hhistory], hdrew⟩
  took := by
    intro j hj
    rcases List.mem_append.mp hj with hold | hnew
    · exact h.took j hold
    · cases List.mem_singleton.mp hnew
  increasing := by
    rw [h.increasing]
    refine not_congr (exists₂_congr fun i' j' => ?_)
    have hconcat := concat_sublist_concat (.took i') (.drew i) [.drew i', .drew j', .took j']
      s.history
    simpa using hconcat.symm

/-- **Taking effect**: the new token is the largest so far exactly if its call has not been
overtaken. -/
theorem Ordered.take (h : Ordered base s) (hi : Drew base s.history i n)
    (htook : .took i ∉ s.history) (lease : Option DistributedLockLease) :
    Ordered base { s with
      lease
      history := s.history ++ [.took i]
      granted := s.granted ++ [(i, n)] } where
  counter := by
    show s.counter = base + draws (s.history ++ [.took i])
    rw [draws_append, draws_took, draws_nil, h.counter]
    omega
  nodup := List.nodup_append.mpr ⟨h.nodup, by simp, by
    intro e he e' he' heq
    rw [List.mem_singleton.mp he'] at heq
    exact htook (heq ▸ he)⟩
  granted := by
    intro j m hj
    rcases List.mem_append.mp hj with hold | hnew
    · obtain ⟨before, after, hhistory, hdrew⟩ := h.granted j m hold
      exact ⟨before, after ++ [.took i], by simp [hhistory], hdrew⟩
    · cases List.mem_singleton.mp hnew
      exact ⟨s.history, [], rfl, hi⟩
  took := by
    intro j hj
    rcases List.mem_append.mp hj with hold | hnew
    · obtain ⟨m, hm⟩ := h.took j hold
      exact ⟨m, List.mem_append_left _ hm⟩
    · cases List.mem_singleton.mp hnew
      exact ⟨n, by simp⟩
  increasing := by
    have hlast : (∀ m ∈ s.granted.map Prod.snd, m < n) ↔ ¬ ∃ j, Overtakes s.history i j := by
      constructor
      · rintro hmax ⟨j, hj⟩
        obtain ⟨m, hm⟩ := h.took j (hj.subset (by simp))
        obtain ⟨before, after, hhistory, hdrew⟩ := h.granted j m hm
        have hlt := (overtakes_iff h.nodup hi hhistory hdrew).mp hj
        exact absurd (hmax m (List.mem_map_of_mem hm)) (Nat.lt_asymm hlt)
      · intro hnone m hm
        obtain ⟨⟨j, m'⟩, hmem, rfl⟩ := List.mem_map.mp hm
        obtain ⟨before, after, hhistory, hdrew⟩ := h.granted j m' hmem
        have hle : m' ≤ n := by
          by_contra hlt
          exact hnone ⟨j, (overtakes_iff h.nodup hi hhistory hdrew).mpr (Nat.not_le.mp hlt)⟩
        refine Nat.lt_of_le_of_ne hle ?_
        rintro rfl
        obtain rfl : i = j := hi.unique (by rw [hhistory]; exact hdrew.append _)
        exact htook (by rw [hhistory]; simp)
    have hnew : (∃ i' j', [Event.drew i', .drew j', .took j', .took i'].Sublist
          (s.history ++ [.took i])) ↔
        (∃ i' j', [Event.drew i', .drew j', .took j', .took i'].Sublist s.history) ∨
          ∃ j, Overtakes s.history i j := by
      constructor
      · rintro ⟨i', j', hsub⟩
        rcases (concat_sublist_concat (Event.took i') (.took i)
          [.drew i', .drew j', .took j'] s.history).mp hsub with
          hold | ⟨heq, hover⟩
        · exact Or.inl ⟨i', j', hold⟩
        · cases heq
          exact Or.inr ⟨j', hover⟩
      · rintro (⟨i', j', hold⟩ | ⟨j, hover⟩)
        · exact ⟨i', j', hold.trans (List.sublist_append_left _ _)⟩
        · exact ⟨i, j, hover.append (List.Sublist.refl [Event.took i])⟩
    show ((s.granted ++ [(i, n)]).map Prod.snd).Pairwise (· < ·) ↔ _
    rw [hnew, not_or, ← h.increasing, ← hlast, List.map_append, List.pairwise_append]
    simp

end Order

/-! ### The calls -/

section Safety

variable {ι Ttl : Type} {base : Nat} {deadline : Instant → Ttl → Option Instant}

/-- What the call `i` does to the order: it appends commands of its own. -/
def Extends (base : Nat) (i : ι) (s t : State ι) : Prop :=
  (∃ events, t.history = s.history ++ events ∧ ∀ e ∈ events, e.client = i) ∧
    (Ordered base s → Ordered base t)

/-- What it relies on: the others append commands of theirs. -/
def Others (base : Nat) (i : ι) (s t : State ι) : Prop :=
  (∃ events, t.history = s.history ++ events ∧ ∀ e ∈ events, e.client ≠ i) ∧
    (Ordered base s → Ordered base t)

theorem Extends.others {i j : ι} (hij : i ≠ j) {s t : State ι} (h : Extends base i s t) :
    Others base j s t := by
  obtain ⟨⟨events, hhistory, hclient⟩, hordered⟩ := h
  refine ⟨⟨events, hhistory, ?_⟩, hordered⟩
  intro e he heq
  exact hij ((hclient e he).symm.trans heq)

theorem Extends.setLease (i : ι) (s : State ι) (lease : Option DistributedLockLease) :
    Extends base i s { s with lease } :=
  ⟨⟨[], by simp, by simp⟩, fun h => h.setLease lease⟩

theorem Extends.refl (i : ι) (s : State ι) : Extends base i s s :=
  ⟨⟨[], by simp, by simp⟩, id⟩

/-- The commands that draw no token and take no effect. -/
def Command.Quiet : Command → Prop
  | incr | setNx _ => False
  | get | replaceIf _ _ | deleteIf _ | compare _ => True

theorem extends_of_quiet {i : ι} {o : Command} (hquiet : o.Quiet) {s t : State ι} {x : o.Ans}
    (h : server.eff i o s x t) : Extends base i s t := by
  obtain ⟨c, h⟩ := h
  have ht : (serve i o s).2 = t := congrArg Prod.snd (Option.some.inj h)
  subst ht
  cases o with
  | incr => cases hquiet
  | setNx lease => cases hquiet
  | get => exact Extends.refl i s
  | replaceIf current next =>
    simp only [serve]
    split
    · exact Extends.setLease i s (some next)
    · exact Extends.refl i s
  | deleteIf current =>
    simp only [serve]
    split
    · exact Extends.setLease i s none
    · exact Extends.refl i s
  | compare current => exact Extends.refl i s

/-- Programs of quiet commands disturb nobody. -/
theorem quiet_safe (i : ι) {p : Prog Command Command.Ans LockReply} (hp : p.Uses Command.Quiet)
    (s : State ι) :
    p.Safe (server.eff i) (Others base i) (Extends base i) (fun _ _ => True) s :=
  Prog.safe_of_uses hp (fun _ _ _ _ ho he => extends_of_quiet ho he) s

theorem renew_quiet (ownerId : String) (fencingToken : Nat) (nowIso : Instant) (ttlMs : Ttl) :
    (renew deadline ownerId fencingToken nowIso ttlMs).Uses Command.Quiet := by
  refine Prog.uses_perform_bind trivial fun current => ?_
  cases current with
  | none => trivial
  | some cur =>
    dsimp only
    split
    · trivial
    · trivial
    · refine Prog.uses_perform_bind trivial fun renewed => ?_
      cases renewed <;> trivial

theorem release_quiet (ownerId : String) (fencingToken : Nat) :
    (release ownerId fencingToken).Uses Command.Quiet := by
  refine Prog.uses_perform_bind trivial fun current => ?_
  cases current with
  | none => trivial
  | some cur =>
    dsimp only
    split
    · trivial
    · split
      · trivial
      · refine Prog.uses_perform_bind trivial fun deleted => ?_
        cases deleted <;> trivial

theorem validate_quiet (ownerId : String) (fencingToken : Nat) (nowIso : Instant) :
    (validate ownerId fencingToken nowIso).Uses Command.Quiet := by
  refine Prog.uses_perform_bind trivial fun current => ?_
  cases current with
  | none => trivial
  | some cur =>
    dsimp only
    split
    · trivial
    · refine Prog.uses_perform_bind trivial fun unchanged => ?_
      cases unchanged <;> trivial

/-- Before its first command a call has left no trace. -/
def Fresh (base : Nat) (i : ι) (s : State ι) : Prop :=
  Ordered base s ∧ .drew i ∉ s.history ∧ .took i ∉ s.history

/-- Between its two commands an acquisition holds a token. -/
def Holds (base : Nat) (i : ι) (n : Nat) (s : State ι) : Prop :=
  Ordered base s ∧ Drew base s.history i n ∧ .took i ∉ s.history

theorem Others.notMem {i : ι} {s t : State ι} {e : Event ι} (he : e.client = i)
    (hs : e ∉ s.history) (h : Others base i s t) : e ∉ t.history := by
  obtain ⟨⟨events, hhistory, hclient⟩, -⟩ := h
  rw [hhistory, List.mem_append, not_or]
  exact ⟨hs, fun hmem => hclient e hmem he⟩

theorem Fresh.stable {i : ι} (s t : State ι) (hs : Fresh base i s) (h : Others base i s t) :
    Fresh base i t :=
  ⟨h.2 hs.1, h.notMem rfl hs.2.1, h.notMem rfl hs.2.2⟩

theorem Holds.stable {i : ι} {n : Nat} (s t : State ι) (hs : Holds base i n s)
    (h : Others base i s t) : Holds base i n t := by
  refine ⟨h.2 hs.1, ?_, h.notMem rfl hs.2.2⟩
  obtain ⟨⟨events, hhistory, -⟩, -⟩ := h
  rw [hhistory]
  exact hs.2.1.append events

/-- **An acquisition** keeps the order of tokens, whatever the other calls do meanwhile. -/
theorem acquire_safe (i : ι) (resource ownerId : String) (nowIso : Instant) (ttlMs : Ttl)
    {s : State ι} (hs : Fresh base i s) :
    (acquire deadline resource ownerId nowIso ttlMs).Safe (server.eff i)
      (Others base i) (Extends base i) (fun _ _ => True) s := by
  refine Prog.safe_perform_bind hs Fresh.stable ?_
  rintro t token u ⟨hordered, hdrew, htook⟩ ⟨c, he⟩
  obtain ⟨rfl, rfl⟩ := Prod.mk.inj (Option.some.inj he)
  refine ⟨⟨⟨[.drew i], rfl, by simp [Event.client]⟩, fun h => h.draw hdrew⟩, ?_⟩
  have hholds : Holds base i (t.counter + 1)
      { t with counter := t.counter + 1, history := t.history ++ [.drew i] } := by
    refine ⟨hordered.draw hdrew, ⟨t.history, [], rfl, ?_⟩, by simp [htook]⟩
    rw [hordered.counter]
  dsimp only
  split
  · trivial
  · refine Prog.safe_perform_bind hholds Holds.stable ?_
    rintro v acquired w ⟨hordered', hdrew', htook'⟩ ⟨c', he'⟩
    have hserve : serve i (.setNx _) v = (acquired, w) := Option.some.inj he'
    cases hlease : v.lease with
    | none =>
      simp only [serve, hlease] at hserve
      obtain ⟨rfl, rfl⟩ := Prod.mk.inj hserve
      refine ⟨⟨⟨[.took i], rfl, by simp [Event.client]⟩, ?_⟩, trivial⟩
      exact fun h => h.take hdrew' htook' _
    | some current =>
      simp only [serve, hlease] at hserve
      obtain ⟨rfl, rfl⟩ := Prod.mk.inj hserve
      refine ⟨Extends.refl i v, quiet_safe i ?_ v⟩
      exact Prog.uses_perform_bind trivial fun _ => trivial

/-- Every call keeps the order of tokens. -/
theorem call_safe (i : ι) (c : LockCall Ttl) {s : State ι} (hs : Fresh base i s) :
    (call deadline c).Safe (server.eff i) (Others base i) (Extends base i)
      (fun _ _ => True) s := by
  cases c with
  | acquire resource ownerId nowIso ttlMs => exact acquire_safe i resource ownerId nowIso ttlMs hs
  | renew resource ownerId fencingToken nowIso ttlMs =>
    exact quiet_safe i (renew_quiet ownerId fencingToken nowIso ttlMs) s
  | release resource ownerId fencingToken =>
    exact quiet_safe i (release_quiet ownerId fencingToken) s
  | validate resource ownerId fencingToken nowIso =>
    exact quiet_safe i (validate_quiet ownerId fencingToken nowIso) s

/-- **The order holds in every run** of any calls. -/
theorem ordered_of_run [DecidableEq ι] {calls : ι → LockCall Ttl}
    {lease : Option DistributedLockLease} {moves : List (Move ι Unit Unit)}
    {q : Pool ι Command Command.Ans LockReply (State ι)}
    (run : (start deadline calls base lease).run server moves = some q) :
    Ordered base q.state := by
  have hstart : Ordered base (start deadline calls base lease).state :=
    { counter := rfl
      nodup := List.nodup_nil
      granted := fun i n h => by cases h
      took := fun i h => by cases h
      increasing := by simp [start] }
  have hsafe : (start deadline calls base lease).Safe server (Others base) (Extends base) :=
    fun i => call_safe i (calls i) ⟨hstart, by simp [start], by simp [start]⟩
  have hexpire : ∀ s t : State ι, server.drifts s t → t = { s with lease := none } := by
    rintro s t ⟨_, he⟩
    exact (Option.some.inj he).symm
  refine Pool.invariant_of_safe ?_ ?_ ?_ ?_ hsafe hstart run
  · exact fun i j hij s t h => h.others hij
  · intro j s t he
    obtain rfl := hexpire s t he
    exact ⟨⟨[], by simp, by simp⟩, fun h => h.setLease none⟩
  · exact fun i s t hs h => h.2 hs
  · intro s t hs he
    obtain rfl := hexpire s t he
    exact hs.setLease none

end Safety

end Redis

end AiOrchestrator
