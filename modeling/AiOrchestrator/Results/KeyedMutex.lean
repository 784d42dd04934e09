import AiOrchestrator.Execution.KeyedMutex
import Mathlib.Algebra.Order.Ring.Nat
import Mathlib.Tactic.ByContra
import Mathlib.Tactic.Push

/-!
# Keyed mutexes exclude, keep the order and clean up

`Queued` is the invariant of the queues: a call that found a tail is behind the call before it on its key,
a call that found none came alone, and the map has the tail of the newest call while that has not left.
`Queued.move` says that every move keeps it, whatever the order of the moves. The promises of the mutex
are read off it (`runExclusive_promised`).
-/

namespace AiOrchestrator

namespace KeyedAsyncMutex

variable {κ ω : Type}

/-- No call behind the `c`-th one is for the key. -/
def Newest (m : KeyedAsyncMutex κ ω) (key : κ) (c : Nat) : Prop :=
  ∀ (later : Nat) (call : MutexCall κ ω), c < later → m.calls[later]? = some call → call.key ≠ key

/-! ### The invariant -/

/-- **The queues of the keys.** -/
structure Queued [DecidableEq κ] (m : KeyedAsyncMutex κ ω) : Prop where
  /-- A call that found no tail came when all earlier ones on its key had left. -/
  alone : ∀ (c : Nat) (call : MutexCall κ ω), m.calls[c]? = some call → call.previous = none →
    ∀ (c' : Nat) (call' : MutexCall κ ω), c' < c → m.calls[c']? = some call' → call'.key = call.key → call'.IsDone
  /-- A call that found a tail found that of the call before it on its key. -/
  behind : ∀ (c : Nat) (call : MutexCall κ ω) (p : Nat), m.calls[c]? = some call → call.previous = some p →
    p < c ∧ (∃ callp : MutexCall κ ω, m.calls[p]? = some callp ∧ callp.key = call.key) ∧
      ∀ (c' : Nat) (call' : MutexCall κ ω), p < c' → c' < c → m.calls[c']? = some call' → call'.key ≠ call.key
  woken : ∀ (c : Nat) (call : MutexCall κ ω), m.calls[c]? = some call → call.phase ≠ .waiting →
    m.previousSettled call.previous = true
  tail_done : ∀ (c : Nat) (call : MutexCall κ ω), m.calls[c]? = some call → call.tailSettled = true → call.IsDone
  /-- A call that has been woken came behind calls that have left. -/
  ordered : ∀ (c : Nat) (call : MutexCall κ ω), m.calls[c]? = some call → call.phase ≠ .waiting →
    ∀ (c' : Nat) (call' : MutexCall κ ω), c' < c → m.calls[c']? = some call' → call'.key = call.key → call'.IsDone
  /-- The tail of a key is that of its newest call, while this has not left. -/
  tail : ∀ (key : κ) (c : Nat), m.tails.get? key = some c ↔
    ∃ call : MutexCall κ ω, m.calls[c]? = some call ∧ call.key = key ∧ ¬ call.IsDone ∧ m.Newest key c

variable {m m' : KeyedAsyncMutex κ ω} {c : Nat} {call : MutexCall κ ω}

/-- Behind every call on a key there is the newest one. -/
theorem exists_newest {c : Nat} {call : MutexCall κ ω} (hcall : m.calls[c]? = some call) :
    ∃ newest call', c ≤ newest ∧ m.calls[newest]? = some call' ∧ call'.key = call.key ∧
      m.Newest call.key newest := by
  by_cases hnewest : m.Newest call.key c
  · exact ⟨c, call, Nat.le_refl c, hcall, rfl, hnewest⟩
  · rw [Newest] at hnewest
    push Not at hnewest
    obtain ⟨later, call', hlt, hlater, hkey⟩ := hnewest
    have hlength : later < m.calls.length := (List.getElem?_eq_some_iff.mp hlater).1
    obtain ⟨newest, call'', hle, hat, hkey', hn⟩ := exists_newest hlater
    rw [hkey] at hkey' hn
    exact ⟨newest, call'', Nat.le_trans (Nat.le_of_lt hlt) hle, hat, hkey', hn⟩
termination_by m.calls.length - c

/-! ### Outcomes -/

/-- The body of the call has ended with the outcome. -/
def EndedWith (m : KeyedAsyncMutex κ ω) (c : Nat) (outcome : ω) : Prop :=
  ∃ call, m.calls[c]? = some call ∧ (call.phase = .settled outcome ∨ call.phase = .done outcome)

theorem endedWith_put (new : MutexCall κ ω) (hcall : m.calls[c]? = some call) (j : Nat) (outcome : ω) :
    (m.put c new).EndedWith j outcome ↔
      if j = c then new.phase = .settled outcome ∨ new.phase = .done outcome
      else m.EndedWith j outcome := by
  unfold EndedWith
  rw [getElem?_put new hcall]
  by_cases hj : j = c
  · rw [if_pos hj, if_pos hj]
    exact ⟨fun ⟨_, heq, h⟩ => Option.some.inj heq ▸ h, fun h => ⟨new, rfl, h⟩⟩
  · rw [if_neg hj, if_neg hj]

theorem endedWith_iff (hcall : m.calls[c]? = some call) (outcome : ω) :
    m.EndedWith c outcome ↔ call.phase = .settled outcome ∨ call.phase = .done outcome := by
  unfold EndedWith
  rw [hcall]
  exact ⟨fun ⟨_, heq, h⟩ => Option.some.inj heq ▸ h, fun h => ⟨call, rfl, h⟩⟩

variable [DecidableEq κ]

/-! ### Every move keeps the queues -/

theorem queued_empty : Queued ({} : KeyedAsyncMutex κ ω) where
  alone c call h := by cases h
  behind c call p h := by cases h
  woken c call h := by cases h
  tail_done c call h := by cases h
  ordered c call h := by cases h
  tail key c := by
    constructor
    · intro h
      cases h
    · rintro ⟨call, h, -⟩
      cases h

omit [DecidableEq κ] in
/-- A settled promise stays settled, if the tails do. -/
theorem previousSettled_put (new : MutexCall κ ω) (hcall : m.calls[c]? = some call)
    (htail : call.tailSettled = true → new.tailSettled = true) {previous : Option Nat}
    (h : m.previousSettled previous = true) : (m.put c new).previousSettled previous = true := by
  cases previous with
  | none => rfl
  | some p =>
    rw [previousSettled] at h ⊢
    rw [getElem?_put new hcall]
    by_cases hp : p = c
    · subst hp
      rw [hcall, Option.any_some] at h
      rw [if_pos rfl, Option.any_some]
      exact htail h
    · rw [if_neg hp]
      exact h

/-- **A call that moves on** keeps the queues, provided that it has been woken in its turn. -/
theorem Queued.put (h : m.Queued) (new : MutexCall κ ω) (hcall : m.calls[c]? = some call)
    (hkey : new.key = call.key) (hprevious : new.previous = call.previous)
    (hdone : call.IsDone → new.IsDone) (htail : call.tailSettled = true → new.tailSettled = true)
    (hwoken : m.previousSettled call.previous = true)
    (hnewTail : new.tailSettled = true → new.IsDone) (tails : Dict κ Nat)
    (htails : ∀ key j, tails.get? key = some j ↔
      m.tails.get? key = some j ∧ ¬ (j = c ∧ new.IsDone)) :
    Queued { calls := (m.put c new).calls, tails } := by
  have hat : ∀ {j : Nat} {call' : MutexCall κ ω}, (m.put c new).calls[j]? = some call' →
      ∃ old, m.calls[j]? = some old ∧ call'.key = old.key ∧ call'.previous = old.previous ∧
        (old.IsDone → call'.IsDone) ∧ (j = c ∧ call' = new ∨ j ≠ c ∧ call' = old) := by
    intro j call' hj
    rw [getElem?_put new hcall] at hj
    by_cases hjc : j = c
    · rw [if_pos hjc] at hj
      obtain rfl := Option.some.inj hj
      subst hjc
      exact ⟨call, hcall, hkey, hprevious, hdone, Or.inl ⟨rfl, rfl⟩⟩
    · rw [if_neg hjc] at hj
      exact ⟨call', hj, rfl, rfl, id, Or.inr ⟨hjc, rfl⟩⟩
  have hto : ∀ {j : Nat} {old : MutexCall κ ω}, m.calls[j]? = some old →
      ∃ call', (m.put c new).calls[j]? = some call' ∧ call'.key = old.key := by
    intro j old hold
    rw [getElem?_put new hcall]
    by_cases hjc : j = c
    · subst hjc
      rw [hcall] at hold
      obtain rfl := Option.some.inj hold
      exact ⟨new, if_pos rfl, hkey⟩
    · exact ⟨old, (if_neg hjc).trans hold, rfl⟩
  -- the calls before one that has been woken have left
  have hbefore : ∀ (c' : Nat) (call' : MutexCall κ ω), c' < c → m.calls[c']? = some call' → call'.key = call.key →
      call'.IsDone := by
    intro c' call' hlt hcall' hsame
    cases hprev : call.previous with
    | none => exact h.alone c call hcall hprev c' call' hlt hcall' hsame
    | some p =>
      obtain ⟨hpc, ⟨callp, hcallp, hkeyp⟩, hbetween⟩ := h.behind c call p hcall hprev
      rw [hprev, previousSettled, hcallp, Option.any_some] at hwoken
      have hpdone := h.tail_done p callp hcallp hwoken
      have hpwoken : callp.phase ≠ .waiting := fun hwaiting =>
        MutexCall.not_isDone_of_waiting hwaiting hpdone
      rcases Nat.lt_trichotomy c' p with hlt' | rfl | hgt
      · exact h.ordered p callp hcallp hpwoken c' call' hlt' hcall' (hsame.trans hkeyp.symm)
      · rw [hcallp] at hcall'
        rw [← Option.some.inj hcall']
        exact hpdone
      · exact absurd hsame (hbetween c' call' hgt hlt hcall')
  refine ⟨?_, ?_, ?_, ?_, ?_, ?_⟩
  · intro j callj hj hnone c' call' hlt hc' hsame
    obtain ⟨old, hold, hk, hp, -, -⟩ := hat hj
    obtain ⟨old', hold', hk', -, hd', -⟩ := hat hc'
    exact hd' (h.alone j old hold (hp ▸ hnone) c' old' hlt hold' (by rw [← hk', ← hk, hsame]))
  · intro j callj p hj hsome
    obtain ⟨old, hold, hk, hp, -, -⟩ := hat hj
    obtain ⟨hlt, ⟨oldp, holdp, hkeyp⟩, hbetween⟩ := h.behind j old p hold (hp ▸ hsome)
    obtain ⟨callp, hcallp, hkp⟩ := hto holdp
    refine ⟨hlt, ⟨callp, hcallp, by rw [hkp, hkeyp, hk]⟩, fun c' call' hpc' hc'j hc' => ?_⟩
    obtain ⟨old', hold', hk', -, -, -⟩ := hat hc'
    rw [hk', hk]
    exact hbetween c' old' hpc' hc'j hold'
  · intro j callj hj hphase
    obtain ⟨old, hold, -, hp, -, hcase⟩ := hat hj
    show (m.put c new).previousSettled callj.previous = true
    rw [hp]
    refine previousSettled_put new hcall htail ?_
    rcases hcase with ⟨rfl, -⟩ | ⟨-, rfl⟩
    · rw [hcall] at hold
      rw [← Option.some.inj hold]
      exact hwoken
    · exact h.woken j callj hold hphase
  · intro j callj hj hsettled
    obtain ⟨old, hold, -, -, -, hcase⟩ := hat hj
    rcases hcase with ⟨-, rfl⟩ | ⟨-, rfl⟩
    · exact hnewTail hsettled
    · exact h.tail_done j callj hold hsettled
  · intro j callj hj hphase c' call' hlt hc' hsame
    obtain ⟨old, hold, hk, -, -, hcase⟩ := hat hj
    obtain ⟨old', hold', hk', -, hd', -⟩ := hat hc'
    have hsame' : old'.key = old.key := by rw [← hk', ← hk, hsame]
    refine hd' ?_
    rcases hcase with ⟨rfl, -⟩ | ⟨-, rfl⟩
    · rw [hcall] at hold
      obtain rfl := Option.some.inj hold
      exact hbefore c' old' hlt hold' hsame'
    · exact h.ordered j callj hold hphase c' old' hlt hold' hsame'
  · intro key j
    have hnewest : ∀ j, Newest { calls := (m.put c new).calls, tails } key j ↔ m.Newest key j := by
      intro j
      constructor
      · intro hn later old hlt hold
        obtain ⟨call', hcall', hk'⟩ := hto hold
        rw [← hk']
        exact hn later call' hlt hcall'
      · intro hn later call' hlt hcall'
        obtain ⟨old, hold, hk', -, -, -⟩ := hat hcall'
        rw [hk']
        exact hn later old hlt hold
    rw [htails, h.tail]
    constructor
    · rintro ⟨⟨old, hold, hk, hnot, hn⟩, hstays⟩
      obtain ⟨call', hcall', hk'⟩ := hto hold
      refine ⟨call', hcall', hk'.trans hk, ?_, (hnewest j).mpr hn⟩
      obtain ⟨old', hold', -, -, -, hcase⟩ := hat hcall'
      rcases hcase with ⟨rfl, rfl⟩ | ⟨-, rfl⟩
      · exact fun hd => hstays ⟨rfl, hd⟩
      · rw [hold] at hold'
        rw [← Option.some.inj hold']
        exact hnot
    · rintro ⟨call', hcall', hk, hnot, hn⟩
      obtain ⟨old, hold, hk', -, hd, hcase⟩ := hat hcall'
      refine ⟨⟨old, hold, hk'.symm.trans hk, fun hdone => hnot (hd hdone), (hnewest j).mp hn⟩, ?_⟩
      rintro ⟨rfl, hdone⟩
      rcases hcase with ⟨-, rfl⟩ | ⟨hne, -⟩
      · exact hnot hdone
      · exact hne rfl

/-- **The map** has an entry for a key exactly while some call on it has not left. -/
theorem Queued.tails_ne_none_iff (h : m.Queued) (key : κ) :
    m.tails.get? key ≠ none ↔
      ∃ (c : Nat) (call : MutexCall κ ω), m.calls[c]? = some call ∧ call.key = key ∧ ¬ call.IsDone := by
  constructor
  · intro hentry
    obtain ⟨c, hc⟩ := Option.ne_none_iff_exists'.mp hentry
    obtain ⟨call, hcall, hkey, hnot, -⟩ := (h.tail key c).mp hc
    exact ⟨c, call, hcall, hkey, hnot⟩
  · rintro ⟨c, call, hcall, rfl, hnot⟩
    obtain ⟨newest, call', hle, hat, hkey, hn⟩ := exists_newest hcall
    have hnot' : ¬ call'.IsDone := by
      rcases Nat.eq_or_lt_of_le hle with rfl | hlt
      · rw [hcall] at hat
        rw [← Option.some.inj hat]
        exact hnot
      · -- a newest call that has been woken has none before it that has not left
        intro hdone
        have hwoken : call'.phase ≠ .waiting := fun hwaiting =>
          MutexCall.not_isDone_of_waiting hwaiting hdone
        exact hnot (h.ordered newest call' hat hwoken c call hlt hcall hkey.symm)
    have hentry : m.tails.get? call.key = some newest := (h.tail _ _).mpr ⟨call', hat, hkey, hnot', hn⟩
    rw [hentry]
    exact Option.some_ne_none _

/-- **A call comes in.** -/
theorem Queued.runExclusive (h : m.Queued) (key : κ) :
    Queued
      { calls := m.calls ++
          [{ key, previous := m.tails.get? key, phase := .waiting, tailSettled := false }]
        tails := m.tails.set key m.calls.length } := by
  let arrived : MutexCall κ ω :=
    { key, previous := m.tails.get? key, phase := .waiting, tailSettled := false }
  let next : KeyedAsyncMutex κ ω :=
    { calls := m.calls ++ [arrived], tails := m.tails.set key m.calls.length }
  show Queued next
  have hat : ∀ {j : Nat} {call' : MutexCall κ ω}, next.calls[j]? = some call' →
      m.calls[j]? = some call' ∨ j = m.calls.length ∧ call' = arrived := by
    intro j call' hj
    rw [show next.calls = m.calls ++ [arrived] from rfl, List.getElem?_append] at hj
    split_ifs at hj with hlt
    · exact Or.inl hj
    · rw [List.getElem?_singleton] at hj
      split_ifs at hj with hindex
      exact Or.inr ⟨by omega, (Option.some.inj hj).symm⟩
  have hto : ∀ {j : Nat} {old : MutexCall κ ω}, m.calls[j]? = some old →
      j < m.calls.length ∧ next.calls[j]? = some old := by
    intro j old hold
    have hlt : j < m.calls.length := (List.getElem?_eq_some_iff.mp hold).1
    exact ⟨hlt, (List.getElem?_append_left hlt).trans hold⟩
  have hlast : next.calls[m.calls.length]? = some arrived := List.getElem?_concat_length
  have hwaiting : ¬ arrived.IsDone := MutexCall.not_isDone_of_waiting rfl
  have hfree : m.tails.get? key = none → ∀ (c' : Nat) (call' : MutexCall κ ω),
      m.calls[c']? = some call' → call'.key = key → call'.IsDone := by
    intro hnone c' call' hc' hkey
    by_contra hnot
    exact (h.tails_ne_none_iff key).mpr ⟨c', call', hc', hkey, hnot⟩ hnone
  have hsettled : ∀ {previous : Option Nat}, m.previousSettled previous = true →
      next.previousSettled previous = true := by
    intro previous hprevious
    cases previous with
    | none => rfl
    | some p =>
      obtain ⟨callp, hcallp, htail⟩ := (Option.any_eq_true _ _).mp hprevious
      rw [previousSettled, (hto hcallp).2]
      exact htail
  refine ⟨?_, ?_, ?_, ?_, ?_, ?_⟩
  · intro j callj hj hnone c' call' hlt hc' hsame
    rcases hat hc' with hold' | ⟨rfl, -⟩
    · rcases hat hj with hold | ⟨rfl, rfl⟩
      · exact h.alone j callj hold hnone c' call' hlt hold' hsame
      · exact hfree hnone c' call' hold' hsame
    · rcases hat hj with hold | ⟨rfl, -⟩
      · exact absurd hlt (Nat.lt_asymm (hto hold).1)
      · exact absurd hlt (Nat.lt_irrefl _)
  · intro j callj p hj hsome
    rcases hat hj with hold | ⟨rfl, rfl⟩
    · obtain ⟨hlt, ⟨callp, hcallp, hkey⟩, hbetween⟩ := h.behind j callj p hold hsome
      refine ⟨hlt, ⟨callp, (hto hcallp).2, hkey⟩, fun c' call' hpc' hc'j hc' => ?_⟩
      rcases hat hc' with hold' | ⟨rfl, -⟩
      · exact hbetween c' call' hpc' hc'j hold'
      · exact absurd hc'j (Nat.lt_asymm (hto hold).1)
    · obtain ⟨callp, hcallp, hkey, -, hnewest⟩ := (h.tail key p).mp hsome
      refine ⟨(hto hcallp).1, ⟨callp, (hto hcallp).2, hkey⟩, fun c' call' hpc' hc'j hc' => ?_⟩
      rcases hat hc' with hold' | ⟨rfl, -⟩
      · exact hnewest c' call' hpc' hold'
      · exact absurd hc'j (Nat.lt_irrefl _)
  · intro j callj hj hphase
    rcases hat hj with hold | ⟨-, rfl⟩
    · exact hsettled (h.woken j callj hold hphase)
    · exact absurd rfl hphase
  · intro j callj hj htail
    rcases hat hj with hold | ⟨-, rfl⟩
    · exact h.tail_done j callj hold htail
    · cases htail
  · intro j callj hj hphase c' call' hlt hc' hsame
    rcases hat hj with hold | ⟨-, rfl⟩
    · rcases hat hc' with hold' | ⟨rfl, -⟩
      · exact h.ordered j callj hold hphase c' call' hlt hold' hsame
      · exact absurd hlt (Nat.lt_asymm (hto hold).1)
    · exact absurd rfl hphase
  · intro key' j
    show (m.tails.set key m.calls.length).get? key' = some j ↔ _
    rw [Dict.get?_set]
    by_cases hkey : key' = key
    · rw [if_pos hkey]
      subst hkey
      constructor
      · intro hj
        obtain rfl := Option.some.inj hj
        refine ⟨arrived, hlast, rfl, hwaiting, fun later call' hlt hlater => ?_⟩
        rcases hat hlater with hold | ⟨rfl, -⟩
        · exact absurd hlt (Nat.lt_asymm (hto hold).1)
        · exact absurd hlt (Nat.lt_irrefl _)
      · rintro ⟨callj, hj, -, -, hnewest⟩
        rcases hat hj with hold | ⟨rfl, -⟩
        · exact absurd rfl (hnewest _ arrived (hto hold).1 hlast)
        · rfl
    · rw [if_neg hkey, h.tail]
      constructor
      · rintro ⟨callj, hold, hkeyj, hnot, hnewest⟩
        refine ⟨callj, (hto hold).2, hkeyj, hnot, fun later call' hlt hlater => ?_⟩
        rcases hat hlater with hold' | ⟨-, rfl⟩
        · exact hnewest later call' hlt hold'
        · exact Ne.symm hkey
      · rintro ⟨callj, hj, hkeyj, hnot, hnewest⟩
        rcases hat hj with hold | ⟨-, rfl⟩
        · exact ⟨callj, hold, hkeyj, hnot,
            fun later call' hlt hlater => hnewest later call' hlt (hto hlater).2⟩
        · exact absurd hkeyj.symm hkey

/-- **Every move keeps the queues.** -/
theorem Queued.move (h : m.Queued) {mv : MutexMove κ ω} (hm : m.move mv = some m') : m'.Queued := by
  cases mv with
  | runExclusive key =>
    obtain rfl := Option.some.inj hm
    exact h.runExclusive key
  | start c =>
    obtain ⟨call, hcall, hwaiting, hprevious, rfl⟩ := move_start hm
    have hnot : ¬ ({ call with phase := .running } : MutexCall κ ω).IsDone := by
      rintro ⟨outcome, hdone⟩
      cases hdone
    refine h.put { call with phase := .running } hcall rfl rfl ?_ id hprevious ?_ m.tails ?_
    · exact fun hdone => absurd hdone (MutexCall.not_isDone_of_waiting hwaiting)
    · exact fun htail => absurd (h.tail_done c call hcall htail)
        (MutexCall.not_isDone_of_waiting hwaiting)
    · exact fun key j => (and_iff_left fun hj => hnot hj.2).symm
  | settle c outcome =>
    obtain ⟨call, hcall, hrunning, rfl⟩ := move_settle hm
    have hnot : ¬ ({ call with phase := .settled outcome } : MutexCall κ ω).IsDone := by
      rintro ⟨outcome', hdone⟩
      cases hdone
    have hbefore : ¬ call.IsDone := by
      rintro ⟨outcome', hdone⟩
      rw [hrunning] at hdone
      cases hdone
    have hwoken : m.previousSettled call.previous = true :=
      h.woken c call hcall fun hwaiting => by rw [hrunning] at hwaiting; cases hwaiting
    refine h.put { call with phase := .settled outcome } hcall rfl rfl
      (fun hdone => absurd hdone hbefore) id hwoken ?_ m.tails ?_
    · exact fun htail => absurd (h.tail_done c call hcall htail) hbefore
    · exact fun key j => (and_iff_left fun hj => hnot hj.2).symm
  | leave c =>
    obtain ⟨call, outcome, hcall, hsettled, rfl⟩ := move_leave hm
    have hdone : ({ call with phase := .done outcome } : MutexCall κ ω).IsDone := ⟨outcome, rfl⟩
    have hwoken : m.previousSettled call.previous = true :=
      h.woken c call hcall fun hwaiting => by rw [hsettled] at hwaiting; cases hwaiting
    refine h.put { call with phase := .done outcome } hcall rfl rfl (fun _ => hdone) id hwoken
      (fun _ => hdone) _ fun key j => ?_
    -- the entry that goes is the call's own, and only its own key can have it
    have hown : m.tails.get? key = some c → key = call.key := by
      intro hentry
      obtain ⟨call', hcall', hkey, -⟩ := (h.tail key c).mp hentry
      rw [hcall] at hcall'
      rw [← hkey, Option.some.inj hcall']
    by_cases hentry : m.tails.get? call.key = some c
    · rw [if_pos hentry, Dict.get?_erase]
      by_cases hkey : key = call.key
      · subst hkey
        rw [if_pos rfl, hentry]
        constructor
        · intro hj
          cases hj
        · rintro ⟨hj, hne⟩
          exact absurd ⟨(Option.some.inj hj).symm, hdone⟩ hne
      · rw [if_neg hkey]
        refine (and_iff_left_of_imp fun hj hjc => hkey (hown ?_)).symm
        rw [← hjc.1]
        exact hj
    · rw [if_neg hentry]
      refine (and_iff_left_of_imp fun hj hjc => hentry ?_).symm
      rw [hjc.1] at hj
      rw [← hown hj]
      exact hj
  | settleTail c =>
    obtain ⟨call, hcall, hdone, -, hprevious, rfl⟩ := move_settleTail hm
    refine h.put { call with tailSettled := true } hcall rfl rfl id (fun _ => rfl) hprevious
      (fun _ => hdone) m.tails ?_
    refine fun key j => (and_iff_left_of_imp fun hj hjc => ?_).symm
    obtain ⟨call', hcall', -, hnot, -⟩ := (h.tail key j).mp hj
    rw [hjc.1, hcall] at hcall'
    rw [← Option.some.inj hcall'] at hnot
    exact hnot hdone

theorem run_cons {mv : MutexMove κ ω} {moves : List (MutexMove κ ω)} :
    m.run (mv :: moves) = some m' ↔ ∃ next, m.move mv = some next ∧ next.run moves = some m' :=
  Option.bind_eq_some_iff

/-- **Every run keeps the queues.** -/
theorem Queued.run {moves : List (MutexMove κ ω)} (h : m.Queued) (hm : m.run moves = some m') :
    m'.Queued := by
  induction moves generalizing m with
  | nil =>
    obtain rfl := Option.some.inj hm
    exact h
  | cons mv moves ih =>
    obtain ⟨next, hmove, hrun⟩ := run_cons.mp hm
    exact ih (h.move hmove) hrun

/-! ### What ends a body -/

/-- **A body ends with an outcome** by the move that settles it so, and by no other. -/
theorem endedWith_move {mv : MutexMove κ ω} (h : m.move mv = some m') (c : Nat) (outcome : ω) :
    m'.EndedWith c outcome ↔ m.EndedWith c outcome ∨ mv = .settle c outcome := by
  cases mv with
  | runExclusive key =>
    obtain rfl := Option.some.inj h
    have hother : ¬ (MutexMove.runExclusive key : MutexMove κ ω) = .settle c outcome := by rintro ⟨⟩
    rw [or_iff_left hother]
    unfold EndedWith
    rw [List.getElem?_append]
    split_ifs with hlt
    · rfl
    · rw [List.getElem?_eq_none (Nat.not_lt.mp hlt), List.getElem?_singleton]
      split_ifs with hindex
      · constructor
        · rintro ⟨call, heq, hphase⟩
          rw [← Option.some.inj heq] at hphase
          rcases hphase with hphase | hphase <;> cases hphase
        · rintro ⟨call, heq, -⟩
          cases heq
      · rfl
  | start j =>
    obtain ⟨call, hcall, hwaiting, -, rfl⟩ := move_start h
    have hother : ¬ (MutexMove.start j : MutexMove κ ω) = .settle c outcome := by rintro ⟨⟩
    rw [endedWith_put _ hcall, or_iff_left hother]
    split_ifs with hc
    · subst hc
      rw [endedWith_iff hcall, hwaiting]
      simp
    · rfl
  | settle j outcome' =>
    obtain ⟨call, hcall, hrunning, rfl⟩ := move_settle h
    rw [endedWith_put _ hcall]
    split_ifs with hc
    · subst hc
      rw [endedWith_iff hcall, hrunning]
      simp
    · rw [or_iff_left]
      intro heq
      exact hc (MutexMove.settle.inj heq).1.symm
  | leave j =>
    obtain ⟨call, outcome', hcall, hsettled, rfl⟩ := move_leave h
    have hother : ¬ (MutexMove.leave j : MutexMove κ ω) = .settle c outcome := by rintro ⟨⟩
    rw [or_iff_left hother]
    show (m.put j { call with phase := .done outcome' }).EndedWith c outcome ↔ _
    rw [endedWith_put _ hcall]
    split_ifs with hc
    · subst hc
      rw [endedWith_iff hcall, hsettled]
      simp
    · rfl
  | settleTail j =>
    obtain ⟨call, hcall, -, -, -, rfl⟩ := move_settleTail h
    have hother : ¬ (MutexMove.settleTail j : MutexMove κ ω) = .settle c outcome := by rintro ⟨⟩
    rw [endedWith_put _ hcall, or_iff_left hother]
    split_ifs with hc
    · subst hc
      rw [endedWith_iff hcall]
    · rfl

theorem endedWith_run {moves : List (MutexMove κ ω)} (h : m.run moves = some m') (c : Nat)
    (outcome : ω) :
    m'.EndedWith c outcome ↔ m.EndedWith c outcome ∨ .settle c outcome ∈ moves := by
  induction moves generalizing m with
  | nil =>
    obtain rfl := Option.some.inj h
    exact (or_iff_left List.not_mem_nil).symm
  | cons mv moves ih =>
    obtain ⟨next, hmove, hrun⟩ := run_cons.mp h
    rw [ih hrun, endedWith_move hmove, or_assoc, List.mem_cons, eq_comm]

/-! ### The number of moves -/

/-- The moves that the calls have made. -/
def moveCount (m : KeyedAsyncMutex κ ω) : Nat := (m.calls.map MutexCall.rank).sum

omit [DecidableEq κ] in
theorem moveCount_put {new : MutexCall κ ω} (hcall : m.calls[c]? = some call)
    (hrank : new.rank = call.rank + 1) : (m.put c new).moveCount = m.moveCount + 1 := by
  have hsum : ∀ (calls : List (MutexCall κ ω)) (c : Nat), calls[c]? = some call →
      ((calls.set c new).map MutexCall.rank).sum = (calls.map MutexCall.rank).sum + 1 := by
    intro calls
    induction calls with
    | nil =>
      intro c h
      cases h
    | cons first calls ih =>
      intro c h
      cases c with
      | zero =>
        obtain rfl := Option.some.inj h
        rw [List.set_cons_zero, List.map_cons, List.map_cons, List.sum_cons, List.sum_cons, hrank]
        omega
      | succ c =>
        rw [List.set_cons_succ, List.map_cons, List.map_cons, List.sum_cons, List.sum_cons, ih c h]
        omega
  exact hsum m.calls c hcall

theorem moveCount_move {mv : MutexMove κ ω} (h : m.move mv = some m') :
    m'.moveCount = m.moveCount + if mv.isArrival then 0 else 1 := by
  cases mv with
  | runExclusive key =>
    obtain rfl := Option.some.inj h
    rw [moveCount, List.map_append, List.sum_append]
    rfl
  | start c =>
    obtain ⟨call, hcall, hwaiting, -, rfl⟩ := move_start h
    refine moveCount_put hcall ?_
    simp only [MutexCall.rank, hwaiting]
    omega
  | settle c outcome =>
    obtain ⟨call, hcall, hrunning, rfl⟩ := move_settle h
    refine moveCount_put hcall ?_
    simp only [MutexCall.rank, hrunning]
    omega
  | leave c =>
    obtain ⟨call, outcome, hcall, hsettled, rfl⟩ := move_leave h
    show (m.put c { call with phase := .done outcome }).moveCount = m.moveCount + 1
    refine moveCount_put hcall ?_
    simp only [MutexCall.rank, hsettled]
    omega
  | settleTail c =>
    obtain ⟨call, hcall, -, htail, -, rfl⟩ := move_settleTail h
    refine moveCount_put hcall ?_
    simp only [MutexCall.rank, htail]
    rfl

theorem moveCount_run {moves : List (MutexMove κ ω)} (h : m.run moves = some m') :
    m'.moveCount = m.moveCount + moves.countP fun mv => !mv.isArrival := by
  induction moves generalizing m with
  | nil =>
    obtain rfl := Option.some.inj h
    rfl
  | cons mv moves ih =>
    obtain ⟨next, hmove, hrun⟩ := run_cons.mp h
    rw [ih hrun, moveCount_move hmove, List.countP_cons]
    cases mv.isArrival <;> simp
    omega

omit [DecidableEq κ] in
/-- A call makes four moves at most. -/
theorem moveCount_le (m : KeyedAsyncMutex κ ω) : m.moveCount ≤ 4 * m.calls.length := by
  have hrank : ∀ call : MutexCall κ ω, call.rank ≤ 4 := by
    rintro ⟨key, previous, phase, tailSettled⟩
    cases phase <;> cases tailSettled <;> simp [MutexCall.rank]
  have hsum : ∀ calls : List (MutexCall κ ω), (calls.map MutexCall.rank).sum ≤ 4 * calls.length := by
    intro calls
    induction calls with
    | nil => exact Nat.le_refl 0
    | cons first calls ih =>
      have hfirst := hrank first
      rw [List.map_cons, List.sum_cons, List.length_cons]
      omega
  exact hsum m.calls

/-! ### Progress -/

/-- Somebody works for the call: a body on its key runs, or a call on its key can move on. -/
def Served (m : KeyedAsyncMutex κ ω) (key : κ) : Prop :=
  ∃ (c : Nat) (call : MutexCall κ ω), m.calls[c]? = some call ∧ call.key = key ∧
    (call.phase = .running ∨ (m.move (.start c)).isSome = true ∨ (m.move (.leave c)).isSome = true ∨
      (m.move (.settleTail c)).isSome = true)

/-- **A call that waits** waits for its own key only. -/
theorem Queued.served (h : m.Queued) {c : Nat} {call : MutexCall κ ω}
    (hcall : m.calls[c]? = some call) (hwaiting : call.phase = .waiting) : m.Served call.key := by
  induction c using Nat.strongRecOn generalizing call with
  | _ c ih =>
    obtain ⟨key, previous, phase, tailSettled⟩ := call
    obtain rfl : phase = .waiting := hwaiting
    have hstart : m.previousSettled previous = true → m.Served key := by
      intro hprevious
      refine ⟨c, _, hcall, rfl, Or.inr (Or.inl ?_)⟩
      simp only [KeyedAsyncMutex.move, hcall, if_pos hprevious, Option.isSome_some]
    cases hprev : previous with
    | none =>
      rw [hprev] at hstart
      exact hstart rfl
    | some p =>
      rw [hprev] at hcall hstart
      obtain ⟨hlt, ⟨callp, hcallp, hkey⟩, -⟩ := h.behind c _ p hcall rfl
      obtain ⟨keyp, previousp, phasep, tailp⟩ := callp
      obtain rfl : keyp = key := hkey
      -- the call before it is waiting, running, leaving, or has left
      cases phasep with
      | waiting =>
        have hserved := ih p hlt hcallp rfl
        exact hserved
      | running => exact ⟨p, _, hcallp, rfl, Or.inl rfl⟩
      | settled outcome =>
        refine ⟨p, _, hcallp, rfl, Or.inr (Or.inr (Or.inl ?_))⟩
        simp only [KeyedAsyncMutex.move, hcallp]
        split <;> rfl
      | done outcome =>
        cases tailp with
        | true =>
          refine hstart ?_
          rw [previousSettled, hcallp]
          rfl
        | false =>
          have hwoken := h.woken p _ hcallp (by rintro ⟨⟩)
          refine ⟨p, _, hcallp, rfl, Or.inr (Or.inr (Or.inr ?_))⟩
          simp only [KeyedAsyncMutex.move, hcallp, if_pos hwoken, Option.isSome_some]

/-! ### Other keys -/

omit [DecidableEq κ] in
/-- The key of the call that a move is for. -/
def moveKey (m : KeyedAsyncMutex κ ω) : MutexMove κ ω → Option κ
  | .runExclusive key => some key
  | .start c | .settle c _ | .leave c | .settleTail c => m.calls[c]?.map (·.key)

/-- A call is not touched by a move for another key. -/
theorem getElem?_move {mv : MutexMove κ ω} (hm : m.move mv = some m')
    (hcall : m.calls[c]? = some call) (hkey : m.moveKey mv ≠ some call.key) :
    m'.calls[c]? = some call := by
  have hother : ∀ {j : Nat} {old : MutexCall κ ω} (new : MutexCall κ ω), m.calls[j]? = some old →
      (m.calls[j]?.map (·.key) ≠ some call.key) → (m.put j new).calls[c]? = some call := by
    intro j old new hold hne
    rw [getElem?_put new hold, if_neg]
    · exact hcall
    · rintro rfl
      rw [hcall] at hne
      exact hne rfl
  cases mv with
  | runExclusive key =>
    obtain rfl := Option.some.inj hm
    exact (List.getElem?_append_left (List.getElem?_eq_some_iff.mp hcall).1).trans hcall
  | start j =>
    obtain ⟨old, hold, -, -, rfl⟩ := move_start hm
    exact hother _ hold hkey
  | settle j outcome =>
    obtain ⟨old, hold, -, rfl⟩ := move_settle hm
    exact hother _ hold hkey
  | leave j =>
    obtain ⟨old, outcome, hold, -, rfl⟩ := move_leave hm
    exact hother { old with phase := .done outcome } hold hkey
  | settleTail j =>
    obtain ⟨old, hold, -, -, -, rfl⟩ := move_settleTail hm
    exact hother _ hold hkey

/-- What a call waits for is not touched either. -/
theorem Queued.previousSettled_move (h : m.Queued) {mv : MutexMove κ ω} (hm : m.move mv = some m')
    (hcall : m.calls[c]? = some call) (hkey : m.moveKey mv ≠ some call.key) :
    m'.previousSettled call.previous = m.previousSettled call.previous := by
  cases hprevious : call.previous with
  | none => rfl
  | some p =>
    obtain ⟨-, ⟨callp, hcallp, hsame⟩, -⟩ := h.behind c call p hcall hprevious
    rw [← hsame] at hkey
    rw [previousSettled, previousSettled, hcallp, getElem?_move hm hcallp hkey]

/-- **Keys do not wait for each other**: whether a call can make a move does not change by a move for
another key. -/
theorem Queued.isSome_move (h : m.Queued) {mv mv' : MutexMove κ ω} (hm : m.move mv = some m')
    (hcall : m.calls[c]? = some call) (hkey : m.moveKey mv ≠ some call.key)
    (hmv' : mv' = .start c ∨ (∃ outcome, mv' = .settle c outcome) ∨ mv' = .leave c ∨
      mv' = .settleTail c) :
    (m'.move mv').isSome = (m.move mv').isSome := by
  have hsame := getElem?_move hm hcall hkey
  have hprevious := h.previousSettled_move hm hcall hkey
  obtain ⟨key, previous, phase, tailSettled⟩ := call
  rcases hmv' with rfl | ⟨outcome, rfl⟩ | rfl | rfl
  · simp only [KeyedAsyncMutex.move, hcall, hsame]
    cases phase <;> simp only [Option.isSome_none]
    rw [hprevious]
    split <;> rfl
  · simp only [KeyedAsyncMutex.move, hcall, hsame]
    cases phase <;> rfl
  · simp only [KeyedAsyncMutex.move, hcall, hsame]
    cases phase <;> simp only [Option.isSome_none]
    split <;> split <;> rfl
  · simp only [KeyedAsyncMutex.move, hcall, hsame]
    cases phase <;> cases tailSettled <;> simp only [Option.isSome_none]
    rw [hprevious]
    split <;> rfl

/-! ### The promises of the mutex -/

/-- **What the mutex promises** of the state `m` after the moves. -/
structure Promised (moves : List (MutexMove κ ω)) (m : KeyedAsyncMutex κ ω) : Prop where
  /-- At most one body on a key runs. -/
  exclusive : ∀ (c c' : Nat) (call call' : MutexCall κ ω), m.calls[c]? = some call →
    m.calls[c']? = some call' → call.key = call'.key → call.phase = .running →
      call'.phase = .running → c = c'
  /-- When a body starts, all calls on its key that came before have left, and all that came after are
  waiting. -/
  inOrder : ∀ before c after m' call, moves = before ++ .start c :: after →
    ({} : KeyedAsyncMutex κ ω).run before = some m' → m'.calls[c]? = some call →
      ∀ (c' : Nat) (call' : MutexCall κ ω), m'.calls[c']? = some call' → call'.key = call.key →
        (c' < c → call'.IsDone) ∧ (c < c' → call'.phase = .waiting)
  /-- A call ends with the outcome of its own body. -/
  isolated : ∀ c outcome, m.EndedWith c outcome ↔ .settle c outcome ∈ moves
  /-- While a call waits, there is work on its key that is under way or can be done. -/
  served : ∀ (c : Nat) (call : MutexCall κ ω), m.calls[c]? = some call → call.phase = .waiting →
    m.Served call.key
  /-- There is only so much to do. -/
  bounded : (moves.countP fun mv => !mv.isArrival) ≤ 4 * m.calls.length
  /-- A move for one key neither lets a call on another one move nor keeps it from moving. -/
  independent : ∀ (mv mv' : MutexMove κ ω) (m' : KeyedAsyncMutex κ ω) (c : Nat)
    (call : MutexCall κ ω), m.move mv = some m' → m.calls[c]? = some call →
      m.moveKey mv ≠ some call.key →
      (mv' = .start c ∨ (∃ outcome, mv' = .settle c outcome) ∨ mv' = .leave c ∨
        mv' = .settleTail c) →
      (m'.move mv').isSome = (m.move mv').isSome
  /-- The map has an entry for a key exactly while a call on it is waiting or running. -/
  entry : ∀ key, m.tails.get? key ≠ none ↔
    ∃ (c : Nat) (call : MutexCall κ ω), m.calls[c]? = some call ∧ call.key = key ∧ ¬ call.IsDone

theorem run_append {moves later : List (MutexMove κ ω)} :
    m.run (moves ++ later) = some m' ↔
      ∃ next, m.run moves = some next ∧ next.run later = some m' := by
  induction moves generalizing m with
  | nil => exact ⟨fun h => ⟨m, rfl, h⟩, fun ⟨next, hnext, h⟩ => Option.some.inj hnext ▸ h⟩
  | cons mv moves ih =>
    rw [List.cons_append, run_cons]
    constructor
    · rintro ⟨next, hmove, h⟩
      obtain ⟨next', hrun, h⟩ := ih.mp h
      exact ⟨next', run_cons.mpr ⟨next, hmove, hrun⟩, h⟩
    · rintro ⟨next', hrun, h⟩
      obtain ⟨next, hmove, hrun⟩ := run_cons.mp hrun
      exact ⟨next, hmove, ih.mpr ⟨next', hrun, h⟩⟩

/-- **Keyed mutexes.** After every run, whatever the order of the moves and the outcomes of the bodies. -/
theorem runExclusive_promised {moves : List (MutexMove κ ω)}
    (h : ({} : KeyedAsyncMutex κ ω).run moves = some m) : Promised moves m := by
  have hqueued : m.Queued := queued_empty.run h
  have hrunning : ∀ {call : MutexCall κ ω}, call.phase = .running → ¬ call.IsDone := by
    rintro call hphase ⟨outcome, hdone⟩
    rw [hphase] at hdone
    cases hdone
  refine ⟨?_, ?_, ?_, ?_, ?_, ?_, hqueued.tails_ne_none_iff⟩
  · intro c c' call call' hc hc' hkey hphase hphase'
    rcases Nat.lt_trichotomy c c' with hlt | heq | hgt
    · refine absurd (hqueued.ordered c' call' hc' ?_ c call hlt hc hkey) (hrunning hphase)
      rw [hphase']
      exact nofun
    · exact heq
    · refine absurd (hqueued.ordered c call hc ?_ c' call' hgt hc' hkey.symm) (hrunning hphase')
      rw [hphase]
      exact nofun
  · intro before c after m' call hmoves hbefore hcall c' call' hcall' hkey
    rw [hmoves, run_append] at h
    obtain ⟨m'', hbefore', hrest⟩ := h
    obtain rfl := Option.some.inj (hbefore.symm.trans hbefore')
    obtain ⟨next, hmove, -⟩ := run_cons.mp hrest
    have hnext : next.Queued := (queued_empty.run hbefore).move hmove
    obtain ⟨old, hold, -, -, rfl⟩ := move_start hmove
    rw [hcall] at hold
    obtain rfl := Option.some.inj hold
    have hstarted : (m'.put c { call with phase := .running }).calls[c]? =
        some { call with phase := .running } := (getElem?_put _ hcall c).trans (if_pos rfl)
    have hothers : c' ≠ c → (m'.put c { call with phase := .running }).calls[c']? = some call' :=
      fun hne => ((getElem?_put _ hcall c').trans (if_neg hne)).trans hcall'
    constructor
    · intro hlt
      exact hnext.ordered c _ hstarted nofun c' call' hlt (hothers (Nat.ne_of_lt hlt)) hkey
    · intro hgt
      by_contra hwoken
      have hdone := hnext.ordered c' call' (hothers (Nat.ne_of_gt hgt)) hwoken c _ hgt hstarted hkey.symm
      exact hrunning rfl hdone
  · intro c outcome
    rw [endedWith_run h, or_iff_right]
    rintro ⟨call, hcall, -⟩
    cases hcall
  · exact fun c call hcall hwaiting => hqueued.served hcall hwaiting
  · have hcount := moveCount_run h
    have hstart : ({} : KeyedAsyncMutex κ ω).moveCount = 0 := rfl
    rw [hstart, Nat.zero_add] at hcount
    rw [← hcount]
    exact moveCount_le m
  · intro mv mv' m' c call hm hcall hkey hmv'
    exact hqueued.isSome_move hm hcall hkey hmv'

/-- Two calls on one key and one on another: the first body fails, and the second one starts. -/
def twoCallers : List (MutexMove String (Except String Nat)) :=
  [.runExclusive "repo-a", .runExclusive "repo-a", .start 0, .runExclusive "repo-b", .start 2,
    .settle 0 (.error "git failed"), .leave 0, .settleTail 0, .start 1]

/-- The second caller does not get the error of the first. -/
theorem runExclusive_promised_twoCallers :
    ∃ m, ({} : KeyedAsyncMutex String (Except String Nat)).run twoCallers = some m ∧
      m.EndedWith 0 (.error "git failed") ∧ ¬ m.EndedWith 1 (.error "git failed") := by
  have hrun : (({} : KeyedAsyncMutex String (Except String Nat)).run twoCallers).isSome = true := by
    decide
  obtain ⟨m, hm⟩ := Option.isSome_iff_exists.mp hrun
  have hpromised := runExclusive_promised hm
  refine ⟨m, hm, (hpromised.isolated 0 (.error "git failed")).mpr ?_, fun hended => ?_⟩
  · simp [twoCallers]
  · have hmem := (hpromised.isolated 1 (.error "git failed")).mp hended
    simp [twoCallers] at hmem

end KeyedAsyncMutex

end AiOrchestrator
