import Mathlib.Data.List.Basic
import Mathlib.Logic.Function.Basic
import Mathlib.Logic.Function.Iterate

/-!
# A queue of actions on promises

An object that runs its actions one after the other by chaining them on a promise:

    run = tail.then(action, action)
    tail = run.then(() => undefined, () => undefined)

A `Loop` holds the promises of such a queue and the jobs of the event loop. `Loop.issue` is the
synchronous part of a call: it registers the reactions. `Loop.tick` runs the first job: an action
settles the promise `run` of its call, fulfilled or rejected, and the job that swallows the
outcome settles the next `tail`. Issues and ticks come in any order.

`Loop.chained_run` is the invariant of every run: the actions executed so far are a prefix of the
issued ones, with the results of executing them one at a time (`runAll`), and exactly one job is
under way while some remain. So nothing that an action does, not even an exception, keeps the
next one from running, and after finitely many ticks all have run (`Loop.drains`).
-/

namespace PromiseQueue

variable {α ρ σ : Type}

/-! ### Execution one at a time -/

/-- The results and the final state of executing actions one at a time. -/
def runAll (exec : α → σ → ρ × σ) : List α → σ → List ρ × σ
  | [], s => ([], s)
  | a :: as, s => ((exec a s).1 :: (runAll exec as (exec a s).2).1, (runAll exec as (exec a s).2).2)

variable {exec : α → σ → ρ × σ}

@[simp] theorem runAll_nil (s : σ) : runAll exec [] s = ([], s) := rfl

theorem runAll_concat (as : List α) (a : α) (s : σ) :
    runAll exec (as ++ [a]) s =
      ((runAll exec as s).1 ++ [(exec a (runAll exec as s).2).1],
        (exec a (runAll exec as s).2).2) := by
  induction as generalizing s with
  | nil => rfl
  | cons b as ih =>
    rw [List.cons_append, runAll, ih]
    rfl

@[simp] theorem length_runAll (as : List α) (s : σ) : (runAll exec as s).1.length = as.length := by
  induction as generalizing s with
  | nil => rfl
  | cons a as ih => simp [runAll, ih]

/-- Actions that do nothing to the state may be left out. -/
theorem runAll_filter {p : α → Bool} (h : ∀ a s, p a = false → (exec a s).2 = s) (as : List α)
    (s : σ) : (runAll exec (as.filter p) s).2 = (runAll exec as s).2 := by
  induction as generalizing s with
  | nil => rfl
  | cons a as ih =>
    cases hp : p a with
    | true =>
      rw [List.filter_cons_of_pos hp, runAll, runAll]
      exact ih _
    | false =>
      rw [List.filter_cons_of_neg (by simp [hp]), ih, runAll]
      simp only
      rw [h a s hp]

/-- The result of an action that stays, found at the place it keeps. -/
theorem runAll_getElem?_filter {p : α → Bool} (h : ∀ a s, p a = false → (exec a s).2 = s)
    (as : List α) (s : σ) {i : Nat} {a : α} (ha : as[i]? = some a) (hp : p a = true) :
    (runAll exec (as.filter p) s).1[(as.take i).countP p]? = (runAll exec as s).1[i]? := by
  induction as generalizing s i with
  | nil => simp at ha
  | cons b as ih =>
    cases i with
    | zero =>
      obtain rfl : b = a := by simpa using ha
      rw [List.filter_cons_of_pos hp]
      simp [runAll]
    | succ i =>
      have ha' : as[i]? = some a := by simpa using ha
      rw [List.take_succ_cons]
      cases hb : p b with
      | true =>
        rw [List.filter_cons_of_pos hb, List.countP_cons_of_pos hb]
        simpa [runAll] using ih (exec b s).2 ha'
      | false =>
        rw [List.filter_cons_of_neg (by simp [hb]), List.countP_cons_of_neg (by simp [hb]), ih s ha']
        simp [runAll, h b s hb]

/-- The result of an action that is left out is its result on the state before it. -/
theorem runAll_getElem? (as : List α) (s : σ) {i : Nat} {a : α} (ha : as[i]? = some a) :
    (runAll exec as s).1[i]? = some (exec a (runAll exec (as.take i) s).2).1 := by
  induction as generalizing s i with
  | nil => simp at ha
  | cons b as ih =>
    cases i with
    | zero =>
      obtain rfl : b = a := by simpa using ha
      simp [runAll]
    | succ i =>
      have ha' : as[i]? = some a := by simpa using ha
      simpa [runAll] using ih (exec b s).2 ha'

theorem runAll_congr {exec' : α → σ → ρ × σ} {as : List α} (h : ∀ a ∈ as, exec a = exec' a)
    (s : σ) : runAll exec as s = runAll exec' as s := by
  induction as generalizing s with
  | nil => rfl
  | cons a as ih =>
    rw [runAll, runAll, h a List.mem_cons_self, ih fun b hb => h b (List.mem_cons_of_mem a hb)]

/-- What every action keeps holds after all of them. -/
theorem runAll_keeps {I : σ → Prop} (h : ∀ a s, I s → I (exec a s).2) (as : List α) {s : σ}
    (hs : I s) : I (runAll exec as s).2 := by
  induction as generalizing s with
  | nil => exact hs
  | cons a as ih => exact ih (h a s hs)

/-! ### Promises and jobs -/

/-- The promises of the queue: `run k` of the `k`-th call, and the `tail` that it is chained on. -/
inductive PromiseId
  | run (k : Nat)
  | tail (k : Nat)
deriving DecidableEq

inductive Settlement
  | fulfilled | rejected
deriving DecidableEq

/-- A job: the action of the `k`-th call, or the handler that swallows its outcome. -/
inductive Job
  | act (k : Nat)
  | swallow (k : Nat)
deriving DecidableEq

/-- The two handlers of a `then`. -/
structure Reaction where
  onFulfilled : Job
  onRejected : Job
deriving DecidableEq

def Reaction.job (r : Reaction) : Settlement → Job
  | .fulfilled => r.onFulfilled
  | .rejected => r.onRejected

inductive Promise
  | pending (reactions : List Reaction)
  | settled (s : Settlement)
deriving DecidableEq

structure Loop (α ρ σ : Type) where
  promises : PromiseId → Promise
  jobs : List Job
  issued : List α
  outcomes : Nat → Option ρ
  memory : σ

namespace Loop

/-- Before the first call: `tail` is a resolved promise. -/
def start (memory : σ) : Loop α ρ σ where
  promises p := if p = .tail 0 then .settled .fulfilled else .pending []
  jobs := []
  issued := []
  outcomes _ := none
  memory := memory

/-- `p.then(…)`. -/
def andThen (loop : Loop α ρ σ) (p : PromiseId) (r : Reaction) : Loop α ρ σ :=
  match loop.promises p with
  | .pending reactions =>
    { loop with promises := Function.update loop.promises p (.pending (reactions ++ [r])) }
  | .settled s => { loop with jobs := loop.jobs ++ [r.job s] }

def settle (loop : Loop α ρ σ) (p : PromiseId) (s : Settlement) : Loop α ρ σ :=
  match loop.promises p with
  | .pending reactions =>
    { loop with
      promises := Function.update loop.promises p (.settled s)
      jobs := loop.jobs ++ reactions.map fun r => r.job s }
  | .settled _ => loop

/-- The synchronous part of a call. -/
def issue (loop : Loop α ρ σ) (a : α) : Loop α ρ σ :=
  let k := loop.issued.length
  let run := { loop with issued := loop.issued ++ [a] }.andThen (.tail k) ⟨.act k, .act k⟩
  run.andThen (.run k) ⟨.swallow k, .swallow k⟩

/-- The first job of the event loop. -/
def tick (exec : α → σ → ρ × σ) (succeeded : ρ → Bool) (loop : Loop α ρ σ) : Loop α ρ σ :=
  match loop.jobs with
  | [] => loop
  | .act k :: jobs =>
    match loop.issued[k]? with
    | none => { loop with jobs }
    | some a =>
      let (r, memory) := exec a loop.memory
      { loop with jobs, memory, outcomes := Function.update loop.outcomes k (some r) }.settle
        (.run k) (if succeeded r then .fulfilled else .rejected)
  | .swallow k :: jobs => { loop with jobs }.settle (.tail (k + 1)) .fulfilled

/-- What happens to the queue. -/
inductive Event (α : Type)
  | issue (a : α)
  | tick

def step (exec : α → σ → ρ × σ) (succeeded : ρ → Bool) (loop : Loop α ρ σ) : Event α → Loop α ρ σ
  | .issue a => loop.issue a
  | .tick => loop.tick exec succeeded

/-- **A run**: calls issued and jobs executed, in any order. -/
def run (exec : α → σ → ρ × σ) (succeeded : ρ → Bool) (loop : Loop α ρ σ)
    (events : List (Event α)) : Loop α ρ σ :=
  events.foldl (step exec succeeded) loop

/-! ### The invariant -/

/-- Where the queue stands between two actions. -/
inductive Phase
  /-- Nothing is left to do. -/
  | idle
  /-- The next action is the first job. -/
  | acting
  /-- The outcome of the last action is about to be swallowed. -/
  | swallowing
deriving DecidableEq

/-- **The invariant** of a queue that started at `start` and has executed `m` actions. -/
structure Chained (exec : α → σ → ρ × σ) (start : σ) (loop : Loop α ρ σ) (m : Nat)
    (phase : Phase) : Prop where
  le : m ≤ loop.issued.length
  memory : loop.memory = (runAll exec (loop.issued.take m) start).2
  outcomes : ∀ k, loop.outcomes k = (runAll exec (loop.issued.take m) start).1[k]?
  idle : phase = .idle → m = loop.issued.length ∧ loop.jobs = []
  acting : phase = .acting → m < loop.issued.length ∧ loop.jobs = [.act m]
  swallowing : phase = .swallowing → ∃ l, m = l + 1 ∧ loop.jobs = [.swallow l]
  runs : ∀ k, m ≤ k → loop.promises (.run k) =
    .pending (if k < loop.issued.length then [⟨.swallow k, .swallow k⟩] else [])
  tails : ∀ k, m < k ∨ m = k ∧ phase = .swallowing → loop.promises (.tail k) =
    .pending (if k < loop.issued.length then [⟨.act k, .act k⟩] else [])
  ready : phase ≠ .swallowing → loop.promises (.tail m) = .settled .fulfilled

theorem chained_start (s : σ) : Chained exec s (start s : Loop α ρ σ) 0 .idle where
  le := Nat.le_refl 0
  memory := rfl
  outcomes := fun _ => rfl
  idle := fun _ => ⟨rfl, rfl⟩
  acting := fun h => by cases h
  swallowing := fun h => by cases h
  runs := fun k _ => by simp [start]
  tails := by
    rintro k (hk | ⟨-, h⟩)
    · simp [start, Nat.ne_of_gt hk]
    · cases h
  ready := fun _ => by simp [start]

variable {succeeded : ρ → Bool} {start : σ} {loop : Loop α ρ σ} {m : Nat} {phase : Phase}

/-- A call on an idle queue: its action becomes a job at once. -/
theorem issue_of_settled (a : α)
    (htail : loop.promises (.tail loop.issued.length) = .settled .fulfilled)
    (hrun : loop.promises (.run loop.issued.length) = .pending []) :
    loop.issue a = { loop with
      issued := loop.issued ++ [a]
      jobs := loop.jobs ++ [.act loop.issued.length]
      promises := Function.update loop.promises (.run loop.issued.length)
        (.pending [⟨.swallow loop.issued.length, .swallow loop.issued.length⟩]) } := by
  simp only [issue, andThen, htail, hrun, List.nil_append, Reaction.job]

/-- A call on a busy queue: its action waits for the last `tail`. -/
theorem issue_of_pending (a : α)
    (htail : loop.promises (.tail loop.issued.length) = .pending [])
    (hrun : loop.promises (.run loop.issued.length) = .pending []) :
    loop.issue a = { loop with
      issued := loop.issued ++ [a]
      promises := Function.update
        (Function.update loop.promises (.tail loop.issued.length)
          (.pending [⟨.act loop.issued.length, .act loop.issued.length⟩]))
        (.run loop.issued.length)
        (.pending [⟨.swallow loop.issued.length, .swallow loop.issued.length⟩]) } := by
  have hrun' : Function.update loop.promises (.tail loop.issued.length)
      (.pending [⟨.act loop.issued.length, .act loop.issued.length⟩])
      (.run loop.issued.length) = .pending [] := by
    rw [Function.update_of_ne (by simp), hrun]
  simp only [issue, andThen, htail, hrun', List.nil_append]

theorem Chained.run_last (h : Chained exec start loop m phase) :
    loop.promises (.run loop.issued.length) = .pending [] := by
  rw [h.runs _ h.le, if_neg (Nat.lt_irrefl _)]

/-- Issuing a call on an idle queue. -/
theorem Chained.issue_idle (h : Chained exec start loop m .idle) (a : α) :
    Chained exec start (loop.issue a) m .acting := by
  obtain ⟨rfl, hjobs⟩ := h.idle rfl
  have htail := h.ready (by simp)
  rw [issue_of_settled a htail h.run_last]
  constructor <;> simp only
  case le => simp
  case memory => simpa using h.memory
  case outcomes => simpa using h.outcomes
  case idle => simp
  case acting => simp [hjobs]
  case swallowing => simp
  case runs =>
    intro k hk
    rw [List.length_append, List.length_singleton]
    by_cases hlast : k = loop.issued.length
    · subst hlast
      simp
    · rw [Function.update_of_ne (by simpa using hlast), h.runs k hk, if_neg (by omega),
        if_neg (by omega)]
  case tails =>
    rintro k (hk | ⟨-, hphase⟩)
    · rw [Function.update_of_ne (by simp), h.tails k (Or.inl hk), List.length_append,
        List.length_singleton, if_neg (by omega), if_neg (by omega)]
    · cases hphase
  case ready => simpa using htail

/-- Issuing a call on a busy queue. -/
theorem Chained.issue_busy (h : Chained exec start loop m phase) (hbusy : phase ≠ .idle) (a : α) :
    Chained exec start (loop.issue a) m phase := by
  have hbehind : m < loop.issued.length ∨ m = loop.issued.length ∧ phase = .swallowing := by
    cases phase with
    | idle => exact absurd rfl hbusy
    | acting => exact Or.inl (h.acting rfl).1
    | swallowing =>
      rcases Nat.lt_or_eq_of_le h.le with hlt | heq
      · exact Or.inl hlt
      · exact Or.inr ⟨heq, rfl⟩
  have htail : loop.promises (.tail loop.issued.length) = .pending [] := by
    rw [h.tails _ hbehind, if_neg (Nat.lt_irrefl _)]
  have htake : (loop.issued ++ [a]).take m = loop.issued.take m :=
    List.take_append_of_le_length h.le
  have hle := h.le
  rw [issue_of_pending a htail h.run_last]
  constructor <;> simp only
  case le => simp only [List.length_append, List.length_singleton]; omega
  case memory => rw [htake]; exact h.memory
  case outcomes => rw [htake]; exact h.outcomes
  case idle => exact fun hphase => absurd hphase hbusy
  case acting =>
    intro hphase
    refine ⟨?_, (h.acting hphase).2⟩
    rw [List.length_append, List.length_singleton]
    omega
  case swallowing => exact h.swallowing
  case runs =>
    intro k hk
    rw [List.length_append, List.length_singleton]
    by_cases hlast : k = loop.issued.length
    · subst hlast
      simp
    · rw [Function.update_of_ne (by simpa using hlast), Function.update_of_ne (by simp),
        h.runs k hk]
      simp only [Nat.lt_succ_iff_lt_or_eq, hlast, or_false]
  case tails =>
    intro k hk
    rw [List.length_append, List.length_singleton, Function.update_of_ne (by simp)]
    by_cases hlast : k = loop.issued.length
    · subst hlast
      simp
    · rw [Function.update_of_ne (by simpa using hlast), h.tails k hk]
      simp only [Nat.lt_succ_iff_lt_or_eq, hlast, or_false]
  case ready =>
    intro hphase
    have hne : m ≠ loop.issued.length := by
      rintro rfl
      rcases hbehind with hlt | ⟨-, hswallowing⟩
      · exact Nat.lt_irrefl _ hlt
      · exact hphase hswallowing
    rw [Function.update_of_ne (by simp), Function.update_of_ne (by simpa using hne)]
    exact h.ready hphase

/-- The job of an action, and the handler that it makes a job. -/
theorem tick_act (exec : α → σ → ρ × σ) (succeeded : ρ → Bool) {a : α}
    (hjobs : loop.jobs = [.act m]) (hissued : loop.issued[m]? = some a)
    (hrun : loop.promises (.run m) = .pending [⟨.swallow m, .swallow m⟩]) :
    loop.tick exec succeeded = { loop with
      jobs := [.swallow m]
      memory := (exec a loop.memory).2
      outcomes := Function.update loop.outcomes m (some (exec a loop.memory).1)
      promises := Function.update loop.promises (.run m) (.settled
        (if succeeded (exec a loop.memory).1 then .fulfilled else .rejected)) } := by
  simp only [tick, hjobs, hissued, settle, hrun, List.map_cons, List.map_nil, List.nil_append]
  congr 2
  split <;> rfl

/-- The job that swallows an outcome, and the next action if there is one. -/
theorem tick_swallow (exec : α → σ → ρ × σ) (succeeded : ρ → Bool) {l : Nat}
    {reactions : List Reaction} (hjobs : loop.jobs = [.swallow l])
    (htail : loop.promises (.tail (l + 1)) = .pending reactions) :
    loop.tick exec succeeded = { loop with
      jobs := reactions.map Reaction.onFulfilled
      promises := Function.update loop.promises (.tail (l + 1)) (.settled .fulfilled) } := by
  simp only [tick, hjobs, settle, htail, List.nil_append]
  rfl

/-- **Executing an action** settles its promise, whatever its outcome. -/
theorem Chained.act (succeeded : ρ → Bool) (h : Chained exec start loop m .acting) :
    Chained exec start (loop.tick exec succeeded) (m + 1) .swallowing := by
  obtain ⟨hm, hjobs⟩ := h.acting rfl
  have hrun : loop.promises (.run m) = .pending [⟨.swallow m, .swallow m⟩] := by
    rw [h.runs m (Nat.le_refl m), if_pos hm]
  have hissued : loop.issued[m]? = some loop.issued[m] := List.getElem?_eq_getElem hm
  have hnext : runAll exec (loop.issued.take (m + 1)) start =
      ((runAll exec (loop.issued.take m) start).1 ++ [(exec loop.issued[m] loop.memory).1],
        (exec loop.issued[m] loop.memory).2) := by
    rw [List.take_succ_eq_append_getElem hm, runAll_concat, ← h.memory]
  have hlength : (runAll exec (loop.issued.take m) start).1.length = m := by
    rw [length_runAll, List.length_take, Nat.min_eq_left h.le]
  rw [tick_act exec succeeded hjobs hissued hrun]
  constructor <;> simp only
  case le => exact hm
  case memory => rw [hnext]
  case outcomes =>
    intro k
    rw [hnext]
    by_cases hk : k = m
    · subst hk
      rw [Function.update_self, List.getElem?_append_right (Nat.le_of_eq hlength), hlength]
      simp
    · rw [Function.update_of_ne hk, h.outcomes k]
      rcases Nat.lt_or_gt_of_ne hk with hlt | hgt
      · rw [List.getElem?_append_left (by omega)]
      · rw [List.getElem?_eq_none (by omega), List.getElem?_eq_none]
        rw [List.length_append, List.length_singleton]
        omega
  case idle => simp
  case acting => simp
  case swallowing => exact fun _ => ⟨m, rfl, rfl⟩
  case runs =>
    intro k hk
    have hne : k ≠ m := by omega
    rw [Function.update_of_ne (by simpa using hne), h.runs k (by omega)]
  case tails =>
    intro k hk
    rw [Function.update_of_ne (by simp), h.tails k (by omega)]
  case ready => simp

/-- **Swallowing an outcome** makes the next action a job, if there is one. -/
theorem Chained.swallow (succeeded : ρ → Bool) (h : Chained exec start loop m .swallowing) :
    Chained exec start (loop.tick exec succeeded) m
      (if m < loop.issued.length then .acting else .idle) := by
  obtain ⟨l, rfl, hjobs⟩ := h.swallowing rfl
  have htail := h.tails (l + 1) (Or.inr ⟨rfl, rfl⟩)
  have hle := h.le
  rw [tick_swallow exec succeeded hjobs htail]
  constructor <;> simp only
  case le => exact h.le
  case memory => exact h.memory
  case outcomes => exact h.outcomes
  case idle =>
    intro hphase
    by_cases hmore : l + 1 < loop.issued.length
    · simp [hmore] at hphase
    · simp [hmore]
      omega
  case acting =>
    intro hphase
    by_cases hmore : l + 1 < loop.issued.length
    · simp [hmore]
    · simp [hmore] at hphase
  case swallowing =>
    intro hphase
    split at hphase <;> cases hphase
  case runs =>
    intro k hk
    rw [Function.update_of_ne (by simp), h.runs k hk]
  case tails =>
    intro k hk
    have hlt : l + 1 < k := by
      rcases hk with hlt | ⟨-, hphase⟩
      · exact hlt
      · split at hphase <;> cases hphase
    rw [Function.update_of_ne (by simpa using Nat.ne_of_gt hlt), h.tails k (Or.inl hlt)]
  case ready => simp

theorem Chained.tick_idle (succeeded : ρ → Bool) (h : Chained exec start loop m .idle) :
    loop.tick exec succeeded = loop := by
  simp only [tick, (h.idle rfl).2]

theorem Chained.step (succeeded : ρ → Bool) (h : Chained exec start loop m phase)
    (event : Event α) :
    ∃ m' phase', Chained exec start (loop.step exec succeeded event) m' phase' := by
  cases event with
  | issue a =>
    by_cases hidle : phase = .idle
    · subst hidle
      exact ⟨m, .acting, h.issue_idle a⟩
    · exact ⟨m, phase, h.issue_busy hidle a⟩
  | tick =>
    cases phase with
    | idle => exact ⟨m, .idle, by simpa [Loop.step, h.tick_idle succeeded] using h⟩
    | acting => exact ⟨m + 1, .swallowing, h.act succeeded⟩
    | swallowing => exact ⟨m, _, h.swallow succeeded⟩

/-- **The invariant holds in every run.** -/
theorem Chained.run (succeeded : ρ → Bool) (h : Chained exec start loop m phase)
    (events : List (Event α)) :
    ∃ m' phase', Chained exec start (loop.run exec succeeded events) m' phase' := by
  induction events generalizing loop m phase with
  | nil => exact ⟨m, phase, h⟩
  | cons event events ih =>
    obtain ⟨m', phase', h'⟩ := h.step succeeded event
    exact ih h'

/-- **Where no job is left, all calls have been executed**, one at a time and in the order in
which they were issued. -/
theorem Chained.drained (h : Chained exec start loop m phase) (hjobs : loop.jobs = []) :
    loop.memory = (runAll exec loop.issued start).2 ∧
      ∀ k, loop.outcomes k = (runAll exec loop.issued start).1[k]? := by
  have hm : m = loop.issued.length := by
    cases phase with
    | idle => exact (h.idle rfl).1
    | acting => simp [(h.acting rfl).2] at hjobs
    | swallowing =>
      obtain ⟨l, -, hl⟩ := h.swallowing rfl
      simp [hl] at hjobs
  have htake : loop.issued.take m = loop.issued := by rw [hm, List.take_length]
  have hmemory := h.memory
  have houtcomes := h.outcomes
  rw [htake] at hmemory houtcomes
  exact ⟨hmemory, houtcomes⟩

@[simp] theorem issued_settle (p : PromiseId) (s : Settlement) :
    (loop.settle p s).issued = loop.issued := by
  unfold settle
  split <;> rfl

@[simp] theorem issued_andThen (p : PromiseId) (r : Reaction) :
    (loop.andThen p r).issued = loop.issued := by
  unfold andThen
  split <;> rfl

@[simp] theorem issued_issue (a : α) : (loop.issue a).issued = loop.issued ++ [a] := by
  simp [issue]

@[simp] theorem issued_tick : (loop.tick exec succeeded).issued = loop.issued := by
  unfold tick
  split
  · rfl
  · split
    · rfl
    · simp
  · simp

/-- The jobs that a phase adds to the two of every call that remains. -/
def Phase.jobs : Phase → Nat
  | idle | acting => 0
  | swallowing => 1

/-- **Progress**: the event loop drains the queue, and executes every action on its way. -/
theorem Chained.drains (succeeded : ρ → Bool) (h : Chained exec start loop m phase) :
    ∃ n, (loop.run exec succeeded (List.replicate n .tick)).jobs = [] := by
  suffices hall : ∀ r (loop : Loop α ρ σ) m phase, Chained exec start loop m phase →
      2 * (loop.issued.length - m) + phase.jobs = r →
      ∃ n, (loop.run exec succeeded (List.replicate n .tick)).jobs = [] from
    hall _ loop m phase h rfl
  intro r
  induction r using Nat.strongRecOn with
  | ind r ih =>
    intro loop m phase h hr
    cases phase with
    | idle => exact ⟨0, (h.idle rfl).2⟩
    | acting =>
      have hm := (h.acting rfl).1
      have hless : 2 * (loop.issued.length - (m + 1)) + Phase.swallowing.jobs < r := by
        simp only [Phase.jobs] at hr ⊢
        omega
      obtain ⟨n, hn⟩ := ih _ hless _ _ _ (h.act succeeded) (by rw [issued_tick])
      exact ⟨n + 1, hn⟩
    | swallowing =>
      have hnone : Phase.jobs (if m < loop.issued.length then .acting else .idle) = 0 := by
        split <;> rfl
      have hless : 2 * (loop.issued.length - m) < r := by
        simp only [Phase.jobs] at hr
        omega
      obtain ⟨n, hn⟩ := ih _ hless _ _ _ (h.swallow succeeded) (by rw [issued_tick, hnone]; rfl)
      exact ⟨n + 1, hn⟩

end Loop

end PromiseQueue
