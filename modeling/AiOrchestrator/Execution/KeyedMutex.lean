import AiOrchestrator.Lib.Dict

/-!
# Keyed mutexes

`createKeyedAsyncMutex` (`packages/execution/src/locks/keyed-async-mutex.ts`). A call of `runExclusive`
reads the tail of its key and puts its own in its place, before it waits for the first time. It is woken
once the tail that it has read is settled, runs its body, and leaves, in the `finally` block, when the
body has settled. Its own tail is settled once the tail before it is and it has left.

Calls are numbered in the order in which they come in. A `MutexMove` is what one turn of the event loop
can do for one call. The reactions to a settled promise run later and in any order, so each is a move of
its own: every order of moves is an interleaving, and the event loop gives some of them.
-/

namespace AiOrchestrator

/-- Where a call is: `ω` is what a body can end with, a value or an error. -/
inductive MutexPhase (ω : Type)
  /-- `await previous.catch(() => {})`. -/
  | waiting
  /-- `await fn()`. -/
  | running
  /-- The body has settled, the `finally` block has not run. -/
  | settled (outcome : ω)
  /-- The promise of the call has settled with the outcome of its body. -/
  | done (outcome : ω)
deriving DecidableEq

structure MutexCall (κ ω : Type) where
  key : κ
  /-- The call whose tail this one waits for; none for `Promise.resolve()`. -/
  previous : Option Nat
  phase : MutexPhase ω
  /-- `ownTail` is settled. -/
  tailSettled : Bool
deriving DecidableEq

/-- A mutex, and the calls it has had. -/
structure KeyedAsyncMutex (κ ω : Type) where
  calls : List (MutexCall κ ω) := []
  tails : Dict κ Nat := ∅

inductive MutexMove (κ ω : Type)
  | runExclusive (key : κ)
  | start (c : Nat)
  | settle (c : Nat) (outcome : ω)
  | leave (c : Nat)
  | settleTail (c : Nat)
deriving DecidableEq

namespace KeyedAsyncMutex

variable {κ ω : Type}

/-- Whether the promise that a call waits for is settled. -/
def previousSettled (m : KeyedAsyncMutex κ ω) : Option Nat → Bool
  | none => true
  | some p => m.calls[p]?.any (·.tailSettled)

/-- Another state of a call. -/
def put (m : KeyedAsyncMutex κ ω) (c : Nat) (call : MutexCall κ ω) : KeyedAsyncMutex κ ω :=
  { m with calls := m.calls.set c call }

variable [DecidableEq κ]

/-- **A move**, if it is possible. -/
def move (m : KeyedAsyncMutex κ ω) : MutexMove κ ω → Option (KeyedAsyncMutex κ ω)
  | .runExclusive key =>
    some
      { calls := m.calls ++
          [{ key, previous := m.tails.get? key, phase := .waiting, tailSettled := false }]
        tails := m.tails.set key m.calls.length }
  | .start c =>
    match m.calls[c]? with
    | some { key, previous, phase := .waiting, tailSettled } =>
      if m.previousSettled previous then
        some (m.put c { key, previous, phase := .running, tailSettled })
      else none
    | _ => none
  | .settle c outcome =>
    match m.calls[c]? with
    | some { key, previous, phase := .running, tailSettled } =>
      some (m.put c { key, previous, phase := .settled outcome, tailSettled })
    | _ => none
  | .leave c =>
    match m.calls[c]? with
    | some { key, previous, phase := .settled outcome, tailSettled } =>
      let left := m.put c { key, previous, phase := .done outcome, tailSettled }
      -- the tail goes only if no later call has put its own in its place
      if m.tails.get? key = some c then some { left with tails := m.tails.erase key } else some left
    | _ => none
  | .settleTail c =>
    match m.calls[c]? with
    | some { key, previous, phase := .done outcome, tailSettled := false } =>
      if m.previousSettled previous then
        some (m.put c { key, previous, phase := .done outcome, tailSettled := true })
      else none
    | _ => none

/-- A run: moves one after the other. -/
def run (m : KeyedAsyncMutex κ ω) : List (MutexMove κ ω) → Option (KeyedAsyncMutex κ ω)
  | [] => some m
  | move :: moves => (m.move move).bind fun m' => m'.run moves

end KeyedAsyncMutex

/-! ### Phases -/

namespace MutexCall

variable {κ ω : Type}

/-- The call has left. -/
def IsDone (call : MutexCall κ ω) : Prop := ∃ outcome, call.phase = .done outcome

/-- The number of moves that the call has made. -/
def rank (call : MutexCall κ ω) : Nat :=
  (match call.phase with
    | .waiting => 0
    | .running => 1
    | .settled _ => 2
    | .done _ => 3) +
    if call.tailSettled then 1 else 0

theorem not_isDone_of_waiting {call : MutexCall κ ω} (h : call.phase = .waiting) : ¬ call.IsDone := by
  rintro ⟨outcome, hdone⟩
  rw [h] at hdone
  cases hdone

end MutexCall

/-- A move by which a call comes in. -/
def MutexMove.isArrival {κ ω : Type} : MutexMove κ ω → Bool
  | .runExclusive _ => true
  | .start _ | .settle _ _ | .leave _ | .settleTail _ => false

namespace KeyedAsyncMutex

variable {κ ω : Type} {m m' : KeyedAsyncMutex κ ω} {c : Nat} {call : MutexCall κ ω}

theorem getElem?_put (new : MutexCall κ ω) (hc : m.calls[c]? = some call) (j : Nat) :
    (m.put c new).calls[j]? = if j = c then some new else m.calls[j]? := by
  have hlength : c < m.calls.length := (List.getElem?_eq_some_iff.mp hc).1
  rw [put, List.getElem?_set]
  by_cases hj : c = j
  · rw [if_pos hj, if_pos hlength, if_pos hj.symm]
  · rw [if_neg hj, if_neg (Ne.symm hj)]

variable [DecidableEq κ]

/-! ### What a move does -/

theorem move_start (h : m.move (.start c) = some m') :
    ∃ call, m.calls[c]? = some call ∧ call.phase = .waiting ∧
      m.previousSettled call.previous = true ∧ m' = m.put c { call with phase := .running } := by
  rw [move] at h
  split at h
  · next key previous tailSettled hcall =>
    split_ifs at h with hprevious
    exact ⟨_, hcall, rfl, hprevious, (Option.some.inj h).symm⟩
  · cases h

theorem move_settle {outcome : ω} (h : m.move (.settle c outcome) = some m') :
    ∃ call, m.calls[c]? = some call ∧ call.phase = .running ∧
      m' = m.put c { call with phase := .settled outcome } := by
  rw [move] at h
  split at h
  · next key previous tailSettled hcall => exact ⟨_, hcall, rfl, (Option.some.inj h).symm⟩
  · cases h

theorem move_leave (h : m.move (.leave c) = some m') :
    ∃ call outcome, m.calls[c]? = some call ∧ call.phase = .settled outcome ∧
      m' =
        { calls := m.calls.set c { call with phase := .done outcome }
          tails := if m.tails.get? call.key = some c then m.tails.erase call.key else m.tails } := by
  rw [move] at h
  split at h
  · next key previous outcome tailSettled hcall =>
    refine ⟨_, outcome, hcall, rfl, ?_⟩
    split_ifs at h with htail
    · rw [← Option.some.inj h, put, if_pos htail]
    · rw [← Option.some.inj h, put, if_neg htail]
  · cases h

theorem move_settleTail (h : m.move (.settleTail c) = some m') :
    ∃ call, m.calls[c]? = some call ∧ call.IsDone ∧ call.tailSettled = false ∧
      m.previousSettled call.previous = true ∧ m' = m.put c { call with tailSettled := true } := by
  rw [move] at h
  split at h
  · next key previous outcome hcall =>
    split_ifs at h with hprevious
    exact ⟨_, hcall, ⟨outcome, rfl⟩, rfl, hprevious, (Option.some.inj h).symm⟩
  · cases h

end KeyedAsyncMutex

end AiOrchestrator
