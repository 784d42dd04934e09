import AiOrchestrator.State.Postgres
import AiOrchestrator.State.RunStepPaths

/-!
# Run steps in PostgreSQL

`recordRunStep` of `PostgresStateStore` (`packages/state/src/postgres/PostgresStateStore.ts`) on the
table `run_step_log` of one tenant and project, under READ COMMITTED. The status of the previous
step is queried before the advisory lock is taken, so two calls for one key can read the same
history. Among rows with the newest time stamp the server may return any one.

`instant` is what the column `created_at` makes of a time stamp; a text that the column does not
accept makes its statement fail. Ids are in the form in which the column returns them.

Two fields of the database are ghosts: `seen` is the table at the query of a call, and `failed` says
that a statement of the call was answered with an error. `Timely` is the condition under which the
calls keep every history a path (`paths_of_timely`): each query finds a history whose last entry is
the newest, and no other call commits to that history until the commit of its own.
-/

namespace AiOrchestrator

namespace PostgresStateStore.RunSteps

/-- The committed rows, in the order of their commits, the rows of open transactions, the advisory
lock and the revision of the committed snapshot. -/
structure Database (ι : Type) where
  rows : List RunStepLogEntry
  inserted : List (ι × RunStepLogEntry)
  lock : Option ι
  revision : Option Nat
  seen : ι → List RunStepLogEntry
  failed : ι → Bool

inductive Statement
  | begin
  | selectPrevious (key : RunStepKey)
  | insert (step : RunStepLogEntry)
  | lock
  | selectRevision
  | commit
  | rollback

@[reducible] def Statement.Res : Statement → Type
  | selectPrevious _ => Option RunStepStatus
  | selectRevision => Option Nat
  | begin | insert _ | lock | commit | rollback => Unit

/-- The entries with the newest time stamp. -/
def newest (instant : String → Int) (entries : List RunStepLogEntry) : List RunStepLogEntry :=
  entries.filter fun entry => entries.all fun other => instant other.createdAt ≤ instant entry.createdAt

/-- `ORDER BY created_at DESC LIMIT 1`, where `pick` chooses among equal time stamps. -/
def previousStatus (instant : String → Int) (pick : Nat) (entries : List RunStepLogEntry) :
    Option RunStepStatus :=
  ((newest instant entries)[pick % (newest instant entries).length]?).map RunStepLogEntry.status

section Semantics

variable {ι : Type} [DecidableEq ι]

/-- The rows of the transaction of the call `i`. -/
def Database.own (db : Database ι) (i : ι) : List RunStepLogEntry :=
  (db.inserted.filter fun row => row.1 = i).map Prod.snd

/-- The end of the transaction of the call `i` without its rows. -/
def Database.discard (db : Database ι) (i : ι) : Database ι :=
  { db with
    inserted := db.inserted.filter fun row => row.1 ≠ i
    lock := if db.lock = some i then none else db.lock }

/-- A statement of the call `i` is answered with an error. -/
def Database.fail (db : Database ι) (i : ι) : Database ι :=
  { db with failed := Function.update db.failed i true }

/-- A statement of the call `i`, `none` while it has to wait. An insertion waits for the open
transactions that have inserted its id. -/
def execute (instant : String → Int) (i : ι) (pick : Nat) :
    (o : Statement) → Database ι → Option (Except RuntimeError o.Res × Database ι)
  | .begin, db => some (.ok (), { db with inserted := db.inserted.filter fun row => row.1 ≠ i })
  | .selectPrevious key, db =>
    some (.ok (previousStatus instant pick (entriesOf key db.rows)),
      { db with seen := Function.update db.seen i db.rows })
  | .insert step, db =>
    if step.id ∈ db.rows.map RunStepLogEntry.id then some (.error uniqueViolation, db.fail i)
    else if db.inserted.any fun row => row.1 ≠ i ∧ row.2.id = step.id then none
    else some (.ok (), { db with inserted := db.inserted ++ [(i, step)] })
  | .lock, db =>
    if db.lock = none ∨ db.lock = some i then some (.ok (), { db with lock := some i }) else none
  | .selectRevision, db => some (.ok db.revision, db)
  | .commit, db => some (.ok (), { db.discard i with rows := db.rows ++ db.own i })
  | .rollback, db => some (.ok (), db.discard i)

/-- PostgreSQL. A `ROLLBACK` that fails has lost its connection. -/
def server (instant : String → Int) :
    Server ι Statement (fun o => Except RuntimeError o.Res) (Database ι) (Fate × Nat) Empty where
  serve i choice o db :=
    match choice.1, o with
    | .executed, o => execute instant i choice.2 o db
    | .failed, .rollback | .dropped, _ => some (.error connectionError, (db.discard i).fail i)
    | .failed, _ => some (.error connectionError, db.fail i)
    | .unanswered, o =>
      (execute instant i choice.2 o db).map fun (_, db) => (.error connectionError, db.fail i)
  drift e := nomatch e

end Semantics

/-! ### The call -/

abbrev Session := Act RuntimeError Statement (fun o => Except RuntimeError o.Res)

def query (o : Statement) : Session o.Res := Act.ask o

/-- `withTransaction`. -/
def withTransaction {α : Type} (action : Session α) : Session α :=
  Act.catching
    (do
      query .begin
      let result ← action
      query .commit
      pure result)
    fun error => do
      query .rollback
      throw (if error.cls = .stateStore then error
        else .stateStore "PostgreSQL state transaction failed")

/-- `lockAndLoadCurrentSnapshotRevision`. -/
def lockAndLoadCurrentSnapshotRevision : Session Nat := do
  query .lock
  let revision : Option Nat ← query .selectRevision
  pure (revision.getD 0)

/-- **`recordRunStep`**. -/
def recordRunStep (step : RunStepLogEntry) : Session Nat :=
  withTransaction do
    let previous : Option RunStepStatus ← query (.selectPrevious step.key)
    Act.ofExcept (assertRunStepTransitionAllowed previous step.status)
    query (.insert step)
    lockAndLoadCurrentSnapshotRevision

/-- **Calls of clients** on a committed table. -/
def start {ι : Type} (steps : ι → RunStepLogEntry) (rows : List RunStepLogEntry)
    (revision : Option Nat) :
    Pool ι Statement (fun o => Except RuntimeError o.Res) (Except RuntimeError Nat)
      (Database ι) where
  threads i := (recordRunStep (steps i)).run
  state := { rows, inserted := [], lock := none, revision, seen := fun _ => [],
             failed := fun _ => false }

/-! ### The order of the query -/

/-- The order by which the server sorts. -/
def Later (instant : String → Int) (left right : RunStepLogEntry) : Prop :=
  instant right.createdAt < instant left.createdAt

instance (instant : String → Int) : DecidableRel (Later instant) := fun _ _ =>
  inferInstanceAs (Decidable (_ < _))

variable {instant : String → Int}

/-- Where the last entry is the newest, the query returns its status. -/
theorem previousStatus_of_newest {entries : List RunStepLogEntry}
    (h : LastIsNewest (Later instant) entries) (pick : Nat) :
    previousStatus instant pick entries = (entries.map RunStepLogEntry.status).getLast? := by
  rcases List.eq_nil_or_concat entries with rfl | ⟨earlier, last, rfl⟩
  · rfl
  · rw [List.concat_eq_append] at h ⊢
    have hlater := h earlier last rfl
    have hlast : ∀ other ∈ earlier ++ [last],
        instant other.createdAt ≤ instant last.createdAt := by
      intro other hother
      rcases List.mem_append.mp hother with hearlier | hself
      · exact Int.le_of_lt (hlater other hearlier)
      · rw [List.mem_singleton.mp hself]
    have hnone : (earlier.filter fun entry => (earlier ++ [last]).all fun other =>
        instant other.createdAt ≤ instant entry.createdAt) = [] := by
      rw [List.filter_eq_nil_iff]
      intro entry hentry hall
      have hle := List.all_eq_true.mp hall last (List.mem_append_right _ List.mem_cons_self)
      exact absurd (hlater entry hentry) (Int.not_lt.mpr (of_decide_eq_true hle))
    have hself : ((earlier ++ [last]).all fun other =>
        instant other.createdAt ≤ instant last.createdAt) = true :=
      List.all_eq_true.mpr fun other hother => decide_eq_true (hlast other hother)
    have hnewest : newest instant (earlier ++ [last]) = [last] := by
      rw [newest, List.filter_append, hnone, List.nil_append, List.filter_eq_self]
      intro entry hentry
      rw [List.mem_singleton.mp hentry]
      exact hself
    rw [previousStatus, hnewest, List.map_append, List.map_singleton, List.getLast?_concat,
      List.length_singleton, Nat.mod_one]
    rfl

/-- The check of a call passes on some answer of its query. -/
def Passes (instant : String → Int) (step : RunStepLogEntry) (seen : List RunStepLogEntry) : Prop :=
  ∃ pick, assertRunStepTransitionAllowed
    (previousStatus instant pick (entriesOf step.key seen)) step.status = .ok ()

/-- The check of a call fails on some answer of its query. -/
def Fails (instant : String → Int) (step : RunStepLogEntry) (seen : List RunStepLogEntry) : Prop :=
  ∃ pick, assertRunStepTransitionAllowed
    (previousStatus instant pick (entriesOf step.key seen)) step.status ≠ .ok ()

section Check

variable {step : RunStepLogEntry} {seen : List RunStepLogEntry}

theorem check_iff_continues (hpath : IsPath (history step.key seen))
    (hnewest : LastIsNewest (Later instant) (entriesOf step.key seen)) (pick : Nat) :
    assertRunStepTransitionAllowed
        (previousStatus instant pick (entriesOf step.key seen)) step.status = .ok () ↔
      Continues (history step.key seen) step.status := by
  rw [previousStatus_of_newest hnewest]
  exact transitionAllowed_iff_continues hpath

theorem Passes.continues (h : Passes instant step seen) (hpath : IsPath (history step.key seen))
    (hnewest : LastIsNewest (Later instant) (entriesOf step.key seen)) :
    Continues (history step.key seen) step.status := by
  obtain ⟨pick, hpick⟩ := h
  exact (check_iff_continues hpath hnewest pick).mp hpick

theorem Fails.not_continues (h : Fails instant step seen) (hpath : IsPath (history step.key seen))
    (hnewest : LastIsNewest (Later instant) (entriesOf step.key seen)) :
    ¬ Continues (history step.key seen) step.status := by
  obtain ⟨pick, hpick⟩ := h
  exact fun hcontinues => hpick ((check_iff_continues hpath hnewest pick).mpr hcontinues)

end Check

/-! ### What the calls guarantee one another -/

section Safety

variable {ι : Type} (instant) (steps : ι → RunStepLogEntry)

/-- **The guarantee** of the call `i`: it leaves what belongs to the other calls alone, and changes
the table by its own step alone, where its check has passed on the history it has read. -/
structure Guar [DecidableEq ι] (i : ι) (s t : Database ι) : Prop where
  own : ∀ j, j ≠ i → t.own j = s.own j
  seen : ∀ j, j ≠ i → t.seen j = s.seen j
  failed : ∀ j, j ≠ i → t.failed j = s.failed j
  rows : t.rows = s.rows ∨
    t.rows = s.rows ++ [steps i] ∧ Passes instant (steps i) (s.seen i)

/-- What the call `j` relies on. -/
structure Rely [DecidableEq ι] (j : ι) (s t : Database ι) : Prop where
  own : t.own j = s.own j
  seen : t.seen j = s.seen j
  failed : t.failed j = s.failed j
  rows : ∀ row ∈ s.rows, row ∈ t.rows

/-- **The outcomes** of the call `i`: its step is committed and its check has passed, or a statement
of it has failed, or its check has. -/
def Outcome (i : ι) (result : Except RuntimeError Nat) (s : Database ι) : Prop :=
  match result with
  | .ok _ => steps i ∈ s.rows ∧ Passes instant (steps i) (s.seen i)
  | .error _ => s.failed i = true ∨ Fails instant (steps i) (s.seen i)

variable [DecidableEq ι] {instant steps} {i j : ι} {s t : Database ι}

theorem Guar.rely (h : Guar instant steps i s t) (hij : j ≠ i) : Rely j s t where
  own := h.own j hij
  seen := h.seen j hij
  failed := h.failed j hij
  rows row hrow := by
    rcases h.rows with hsame | ⟨hrows, -⟩
    · rw [hsame]
      exact hrow
    · rw [hrows]
      exact List.mem_append_left _ hrow

omit [DecidableEq ι] in
theorem Outcome.stable [DecidableEq ι] {result : Except RuntimeError Nat}
    (h : Outcome instant steps i result s) (hrely : Rely i s t) :
    Outcome instant steps i result t := by
  cases result with
  | ok _ =>
    obtain ⟨hrow, hpasses⟩ := h
    refine ⟨hrely.rows _ hrow, ?_⟩
    rw [hrely.seen]
    exact hpasses
  | error _ =>
    unfold Outcome
    rw [hrely.failed, hrely.seen]
    exact h

theorem Guar.refl (i : ι) (s : Database ι) : Guar instant steps i s s where
  own _ _ := rfl
  seen _ _ := rfl
  failed _ _ := rfl
  rows := Or.inl rfl

theorem Guar.fail (h : Guar instant steps i s t) : Guar instant steps i s (t.fail i) where
  own := h.own
  seen := h.seen
  failed j hij := (Function.update_of_ne hij _ _).trans (h.failed j hij)
  rows := h.rows

/-- The rows of the call `i` are gone. -/
theorem own_of_discarded {db : Database ι}
    (h : db.inserted = s.inserted.filter fun row => row.1 ≠ i) : db.own i = [] := by
  rw [Database.own, h, List.filter_filter, List.map_eq_nil_iff, List.filter_eq_nil_iff]
  intro row _
  simp

theorem own_of_discarded_of_ne {db : Database ι}
    (h : db.inserted = s.inserted.filter fun row => row.1 ≠ i) (hij : j ≠ i) :
    db.own j = s.own j := by
  rw [Database.own, h, Database.own, List.filter_filter]
  refine congrArg (List.map Prod.snd) (List.filter_congr fun row _ => ?_)
  by_cases hrow : row.1 = j
  · simp [hrow, hij]
  · simp [hrow]

theorem own_insert_self (db : Database ι) (i : ι) (step : RunStepLogEntry) :
    ({ db with inserted := db.inserted ++ [(i, step)] } : Database ι).own i =
      db.own i ++ [step] := by
  simp [Database.own]

theorem own_insert_of_ne (db : Database ι) (hij : j ≠ i) (step : RunStepLogEntry) :
    ({ db with inserted := db.inserted ++ [(i, step)] } : Database ι).own j = db.own j := by
  simp [Database.own, hij.symm]

theorem Guar.discard (i : ι) (s : Database ι) : Guar instant steps i s (s.discard i) where
  own _ hij := own_of_discarded_of_ne rfl hij
  seen _ _ := rfl
  failed _ _ := rfl
  rows := Or.inl rfl

/-- Statements other than `COMMIT` leave the table alone. -/
theorem guar_of_execute {o : Statement} (ho : o ≠ .commit) {pick : Nat}
    {x : Except RuntimeError o.Res} (h : execute instant i pick o s = some (x, t)) :
    Guar instant steps i s t := by
  cases o with
  | commit => exact absurd rfl ho
  | begin =>
    obtain ⟨-, rfl⟩ := Prod.mk.inj (Option.some.inj h)
    exact ⟨fun j hij => own_of_discarded_of_ne rfl hij, fun _ _ => rfl, fun _ _ => rfl, Or.inl rfl⟩
  | selectPrevious key =>
    obtain ⟨-, rfl⟩ := Prod.mk.inj (Option.some.inj h)
    exact ⟨fun _ _ => rfl, fun j hij => Function.update_of_ne hij _ _, fun _ _ => rfl,
      Or.inl rfl⟩
  | insert step =>
    simp only [execute] at h
    split at h
    · obtain ⟨-, rfl⟩ := Prod.mk.inj (Option.some.inj h)
      exact (Guar.refl i s).fail
    · split at h
      · cases h
      · obtain ⟨-, rfl⟩ := Prod.mk.inj (Option.some.inj h)
        exact ⟨fun j hij => own_insert_of_ne s hij step, fun _ _ => rfl, fun _ _ => rfl,
          Or.inl rfl⟩
  | lock =>
    simp only [execute] at h
    split at h
    · obtain ⟨-, rfl⟩ := Prod.mk.inj (Option.some.inj h)
      exact ⟨fun _ _ => rfl, fun _ _ => rfl, fun _ _ => rfl, Or.inl rfl⟩
    · cases h
  | selectRevision =>
    obtain ⟨-, rfl⟩ := Prod.mk.inj (Option.some.inj h)
    exact Guar.refl i s
  | rollback =>
    obtain ⟨-, rfl⟩ := Prod.mk.inj (Option.some.inj h)
    exact Guar.discard i s

/-- A statement that is answered with an error is noted; any other one was executed. -/
theorem eff_cases {o : Statement} {x : Except RuntimeError o.Res}
    (h : (server instant).eff i o s x t) :
    (∃ pick y, x = .ok y ∧ execute instant i pick o s = some (x, t)) ∨
      (∃ e, x = .error e) ∧ t.failed i = true ∧
        (t = s.fail i ∨ t = (s.discard i).fail i ∨
          ∃ pick y u, execute instant i pick o s = some (y, u) ∧ (t = u ∨ t = u.fail i)) := by
  have hfail : ∀ u : Database ι, (u.fail i).failed i = true := fun u => Function.update_self ..
  obtain ⟨⟨fate, pick⟩, hserve⟩ := h
  cases fate with
  | executed =>
    cases x with
    | ok y => exact Or.inl ⟨pick, y, rfl, hserve⟩
    | error e =>
      -- only a duplicate id is refused
      refine Or.inr ⟨⟨e, rfl⟩, ?_, Or.inr (Or.inr ⟨pick, _, t, hserve, Or.inl rfl⟩)⟩
      cases o with
      | insert step =>
        simp only [server, execute] at hserve
        split at hserve
        · obtain ⟨-, rfl⟩ := Prod.mk.inj (Option.some.inj hserve)
          exact hfail s
        · split at hserve
          · cases hserve
          · cases hserve
      | lock =>
        simp only [server, execute] at hserve
        split at hserve <;> cases hserve
      | _ => cases hserve
  | dropped =>
    obtain ⟨rfl, rfl⟩ := Prod.mk.inj (Option.some.inj hserve)
    exact Or.inr ⟨⟨_, rfl⟩, hfail _, Or.inr (Or.inl rfl)⟩
  | unanswered =>
    obtain ⟨⟨y, u⟩, hexec, heq⟩ := Option.map_eq_some_iff.mp hserve
    obtain ⟨rfl, rfl⟩ := Prod.mk.inj heq
    exact Or.inr ⟨⟨_, rfl⟩, hfail u, Or.inr (Or.inr ⟨pick, y, u, hexec, Or.inr rfl⟩)⟩
  | failed =>
    cases o with
    | rollback =>
      obtain ⟨rfl, rfl⟩ := Prod.mk.inj (Option.some.inj hserve)
      exact Or.inr ⟨⟨_, rfl⟩, hfail _, Or.inr (Or.inl rfl)⟩
    | _ =>
      obtain ⟨rfl, rfl⟩ := Prod.mk.inj (Option.some.inj hserve)
      exact Or.inr ⟨⟨_, rfl⟩, hfail _, Or.inl rfl⟩

/-- A part of the call `i` is safe from `s`: where it returns `Q` holds, and where it fails, a
statement or the check has failed. -/
def Runs {α : Type} (instant : String → Int) (steps : ι → RunStepLogEntry) (i : ι) (m : Session α)
    (Q : α → Database ι → Prop) (s : Database ι) : Prop :=
  Act.Safe ((server instant).eff i) (Rely i) (Guar instant steps i) m
    (Act.outcome Q fun _ s => s.failed i = true ∨ Fails instant (steps i) (s.seen i)) s

variable {α β : Type} {Q : β → Database ι → Prop} {P : Database ι → Prop}

theorem runs_bind {m : Session α} {f : α → Session β}
    (h : Runs instant steps i m (fun a => Runs instant steps i (f a) Q) s) :
    Runs instant steps i (m >>= f) Q s := by
  refine (Act.safe_bind m f _ s).mpr (Act.Safe.mono h ?_)
  intro r t hr
  exact Act.outcome_imp hr (fun a ha => ha) fun _ h => h

/-- **The rule for one statement**: from an assertion about what belongs to the call. -/
theorem runs_query_bind {o : Statement} {f : o.Res → Session β} (hs : P s)
    (hstable : ∀ s t, P s → Rely i s t → P t)
    (hguar : ∀ s pick x t, P s → execute instant i pick o s = some (x, t) →
      Guar instant steps i s t)
    (hok : ∀ s pick x t, P s → execute instant i pick o s = some (.ok x, t) →
      Runs instant steps i (f x) Q t) :
    Runs instant steps i (query o >>= f) Q s := by
  refine Act.safe_ask_bind hs hstable ?_ ?_
  · intro t x u ht he
    rcases eff_cases he with ⟨pick, y, hy, hexec⟩ | ⟨⟨e, herror⟩, -⟩
    · exact ⟨hguar t pick _ u ht hexec, hok t pick x u ht hexec⟩
    · cases herror
  · intro t e u ht he
    rcases eff_cases he with ⟨pick, y, hy, -⟩ | ⟨-, hfailed, hcases⟩
    · cases hy
    · refine ⟨?_, Or.inl hfailed⟩
      rcases hcases with rfl | rfl | ⟨pick, y, v, hexec, rfl | rfl⟩
      · exact (Guar.refl i t).fail
      · exact (Guar.discard i t).fail
      · exact hguar t pick y u ht hexec
      · exact (hguar t pick y v ht hexec).fail

/-! ### The calls -/

/-- What a call that has passed its check knows. -/
structure Checked (instant : String → Int) (steps : ι → RunStepLogEntry) (i : ι)
    (inserted : List RunStepLogEntry) (s : Database ι) : Prop where
  own : s.own i = inserted
  passes : Passes instant (steps i) (s.seen i)

theorem Checked.stable {inserted : List RunStepLogEntry} (h : Checked instant steps i inserted s)
    (hrely : Rely i s t) : Checked instant steps i inserted t := by
  refine ⟨hrely.own.trans h.own, ?_⟩
  rw [hrely.seen]
  exact h.passes

/-- `lockAndLoadCurrentSnapshotRevision` changes nothing of this. -/
theorem runs_lockAndLoad {inserted : List RunStepLogEntry} {R : Nat → Database ι → Prop}
    (h : Checked instant steps i inserted s)
    (hrest : ∀ s n, Checked instant steps i inserted s → R n s) :
    Runs instant steps i lockAndLoadCurrentSnapshotRevision R s := by
  refine runs_query_bind h (fun s t => Checked.stable)
    (fun s pick x t _ => guar_of_execute (by simp)) ?_
  intro s pick x t hs hexec
  have ht : Checked instant steps i inserted t := by
    simp only [execute] at hexec
    split at hexec
    · obtain ⟨-, rfl⟩ := Prod.mk.inj (Option.some.inj hexec)
      exact ⟨hs.own, hs.passes⟩
    · cases hexec
  refine runs_query_bind ht (fun s t => Checked.stable)
    (fun s pick x t _ => guar_of_execute (by simp)) ?_
  intro s pick x t hs hexec
  obtain ⟨-, rfl⟩ := Prod.mk.inj (Option.some.inj hexec)
  exact hrest s _ hs

/-- The transaction of a call ends with its step committed. -/
theorem runs_commit {n : Nat} (h : Checked instant steps i [steps i] s) :
    Runs instant steps i (do query .commit; pure n : Session Nat)
      (fun _ s => steps i ∈ s.rows ∧ Passes instant (steps i) (s.seen i)) s := by
  have hrows : ∀ (s t : Database ι) (pick : Nat) (x : Except RuntimeError Unit),
      Checked instant steps i [steps i] s → execute instant i pick .commit s = some (x, t) →
      Guar instant steps i s t ∧ steps i ∈ t.rows ∧ Passes instant (steps i) (t.seen i) := by
    intro s t pick x hs hexec
    obtain ⟨-, rfl⟩ := Prod.mk.inj (Option.some.inj hexec)
    have hown : s.rows ++ s.own i = s.rows ++ [steps i] := congrArg (s.rows ++ ·) hs.own
    refine ⟨⟨fun j hij => own_of_discarded_of_ne rfl hij, fun _ _ => rfl, fun _ _ => rfl,
      Or.inr ⟨hown, hs.passes⟩⟩, ?_, hs.passes⟩
    show steps i ∈ s.rows ++ s.own i
    rw [hown]
    exact List.mem_append_right _ List.mem_cons_self
  refine runs_query_bind h (fun s t => Checked.stable)
    (fun s pick x t hs hexec => (hrows s t pick x hs hexec).1) ?_
  intro s pick x t hs hexec
  exact (hrows s t pick _ hs hexec).2

/-- **A call is safe**, and its outcome is as it should be. -/
theorem safe_recordRunStep (s : Database ι) :
    Prog.Safe ((server instant).eff i) (Rely i) (Guar instant steps i)
      (recordRunStep (steps i)).run (Outcome instant steps i) s := by
  have hcall : Runs instant steps i (recordRunStep (steps i))
      (fun _ s => steps i ∈ s.rows ∧ Passes instant (steps i) (s.seen i)) s := by
    refine (Act.safe_catching _ _ _ s).mpr (Act.Safe.mono (Q := Act.outcome
      (fun _ s => steps i ∈ s.rows ∧ Passes instant (steps i) (s.seen i))
      (fun _ s => s.failed i = true ∨ Fails instant (steps i) (s.seen i))) ?_ ?_)
    · -- begin, query, check, insert, lock, commit
      refine runs_query_bind (P := fun _ => True) trivial (fun _ _ _ _ => trivial)
        (fun s pick x t _ => guar_of_execute (by simp)) ?_
      intro s pick x t _ hexec
      obtain ⟨-, rfl⟩ := Prod.mk.inj (Option.some.inj hexec)
      refine runs_bind (runs_query_bind (P := fun s : Database ι => s.own i = [])
        (own_of_discarded (s := s) rfl) (fun s t hs hrely => hrely.own.trans hs)
        (fun s pick x t _ => guar_of_execute (by simp)) ?_)
      intro s pick x t hown hexec
      obtain ⟨hx, rfl⟩ := Prod.mk.inj (Option.some.inj hexec)
      obtain rfl := Except.ok.inj hx
      have hseen : Function.update s.seen i s.rows i = s.rows := Function.update_self ..
      cases hcheck : assertRunStepTransitionAllowed
          (previousStatus instant pick (entriesOf (steps i).key s.rows)) (steps i).status with
      | error e =>
        refine Or.inr ⟨pick, ?_⟩
        show assertRunStepTransitionAllowed (previousStatus instant pick
          (entriesOf (steps i).key (Function.update s.seen i s.rows i))) (steps i).status ≠ .ok ()
        rw [hseen, hcheck]
        exact fun h => by cases h
      | ok _ =>
        have hchecked : Checked instant steps i []
            { s with seen := Function.update s.seen i s.rows } :=
          ⟨hown, pick, (congrArg (fun seen => assertRunStepTransitionAllowed
            (previousStatus instant pick (entriesOf (steps i).key seen)) (steps i).status)
            hseen).trans hcheck⟩
        refine runs_query_bind hchecked (fun s t => Checked.stable)
          (fun s pick x t _ => guar_of_execute (by simp)) ?_
        intro s pick x t hs hexec
        simp only [execute] at hexec
        split at hexec
        · cases hexec
        split at hexec
        · cases hexec
        obtain ⟨-, rfl⟩ := Prod.mk.inj (Option.some.inj hexec)
        have hinserted : Checked instant steps i [steps i]
            { s with inserted := s.inserted ++ [(i, steps i)] } := by
          refine ⟨?_, hs.passes⟩
          rw [own_insert_self, hs.own]
          rfl
        exact runs_lockAndLoad hinserted fun s n hs => runs_commit hs
    · -- a failure: rollback, and the error is thrown again
      intro r t hr
      refine Act.outcome_imp hr (fun a ha => ha) fun e he => ?_
      refine runs_query_bind
        (P := fun s : Database ι => s.failed i = true ∨ Fails instant (steps i) (s.seen i)) he
        (fun s t hs hrely => ?_)
        (fun s pick x t _ => guar_of_execute (by simp)) ?_
      · rw [hrely.failed, hrely.seen]
        exact hs
      · intro s pick x t hs hexec
        obtain ⟨-, rfl⟩ := Prod.mk.inj (Option.some.inj hexec)
        exact hs
  exact Act.Safe.mono hcall fun r t hr => by cases r <;> exact hr

theorem start_safe (rows : List RunStepLogEntry) (revision : Option Nat) :
    (start steps rows revision).SafeTo (server instant) (fun i => Rely i) (Guar instant steps)
      (Outcome instant steps) :=
  fun _ => safe_recordRunStep _

/-! ### Timely runs -/

variable {p q : Pool ι Statement (fun o => Except RuntimeError o.Res) (Except RuntimeError Nat)
  (Database ι)} {m : Move ι (Fate × Nat) Empty}

/-- **The condition on a move**: a query finds a history whose last entry is the newest, and a commit
finds the history that its call has read. -/
def Timely (instant : String → Int) (steps : ι → RunStepLogEntry)
    (p : Pool ι Statement (fun o => Except RuntimeError o.Res) (Except RuntimeError Nat)
      (Database ι)) (m : Move ι (Fate × Nat) Empty) : Prop :=
  ∀ i choice, m = .client i choice →
    (∀ key k, p.threads i = .ask (.selectPrevious key) k →
      LastIsNewest (Later instant) (entriesOf (steps i).key p.state.rows)) ∧
    ∀ k, p.threads i = .ask .commit k →
      entriesOf (steps i).key p.state.rows = entriesOf (steps i).key (p.state.seen i)

/-- The condition, checked on one move. -/
def timelyMove (instant : String → Int) (steps : ι → RunStepLogEntry)
    (p : Pool ι Statement (fun o => Except RuntimeError o.Res) (Except RuntimeError Nat)
      (Database ι)) : Move ι (Fate × Nat) Empty → Bool
  | .client i _ =>
    match p.threads i with
    | .ask (.selectPrevious _) _ =>
      decide (LastIsNewest (Later instant) (entriesOf (steps i).key p.state.rows))
    | .ask .commit _ =>
      decide (entriesOf (steps i).key p.state.rows = entriesOf (steps i).key (p.state.seen i))
    | _ => true
  | .drift _ => true

omit [DecidableEq ι] in
theorem timely_of_timelyMove {instant : String → Int} {steps : ι → RunStepLogEntry}
    (h : timelyMove instant steps p m = true) : Timely instant steps p m := by
  intro i choice hm
  subst hm
  refine ⟨fun key k hthread => ?_, fun k hthread => ?_⟩
  · rw [timelyMove, hthread] at h
    exact of_decide_eq_true h
  · rw [timelyMove, hthread] at h
    exact of_decide_eq_true h

/-- What a statement leaves of the table and of what the calls have read. -/
structure Frame (i : ι) (o : Statement) (s t : Database ι) : Prop where
  rows : o ≠ .commit → t.rows = s.rows
  seen : t.seen = s.seen ∨
    (∃ key, o = .selectPrevious key) ∧ t.seen = Function.update s.seen i s.rows

theorem frame_of_execute {o : Statement} {pick : Nat} {x : Except RuntimeError o.Res}
    (h : execute instant i pick o s = some (x, t)) : Frame i o s t := by
  cases o with
  | insert step =>
    simp only [execute] at h
    split at h
    · obtain ⟨-, rfl⟩ := Prod.mk.inj (Option.some.inj h)
      exact ⟨fun _ => rfl, Or.inl rfl⟩
    · split at h
      · cases h
      · obtain ⟨-, rfl⟩ := Prod.mk.inj (Option.some.inj h)
        exact ⟨fun _ => rfl, Or.inl rfl⟩
  | lock =>
    simp only [execute] at h
    split at h
    · obtain ⟨-, rfl⟩ := Prod.mk.inj (Option.some.inj h)
      exact ⟨fun _ => rfl, Or.inl rfl⟩
    · cases h
  | selectPrevious key =>
    obtain ⟨-, rfl⟩ := Prod.mk.inj (Option.some.inj h)
    exact ⟨fun _ => rfl, Or.inr ⟨⟨key, rfl⟩, rfl⟩⟩
  | commit =>
    obtain ⟨-, rfl⟩ := Prod.mk.inj (Option.some.inj h)
    exact ⟨fun ho => absurd rfl ho, Or.inl rfl⟩
  | begin | selectRevision | rollback =>
    obtain ⟨-, rfl⟩ := Prod.mk.inj (Option.some.inj h)
    exact ⟨fun _ => rfl, Or.inl rfl⟩

omit [DecidableEq ι] in
theorem Frame.fail [DecidableEq ι] {o : Statement} (h : Frame i o s t) : Frame i o s (t.fail i) :=
  ⟨h.rows, h.seen⟩

theorem frame_of_eff {o : Statement} {x : Except RuntimeError o.Res}
    (h : (server instant).eff i o s x t) : Frame i o s t := by
  rcases eff_cases h with
    ⟨pick, y, -, hexec⟩ | ⟨-, -, rfl | rfl | ⟨pick, y, u, hexec, rfl | rfl⟩⟩
  · exact frame_of_execute hexec
  · exact ⟨fun _ => rfl, Or.inl rfl⟩
  · exact ⟨fun _ => rfl, Or.inl rfl⟩
  · exact frame_of_execute hexec
  · exact (frame_of_execute hexec).fail

/-- **The invariant** of timely runs. -/
structure Orderly (instant : String → Int) (steps : ι → RunStepLogEntry)
    (p : Pool ι Statement (fun o => Except RuntimeError o.Res) (Except RuntimeError Nat)
      (Database ι)) : Prop where
  safe : p.SafeTo (server instant) (fun i => Rely i) (Guar instant steps) (Outcome instant steps)
  paths : Paths p.state.rows
  seen : ∀ i, Paths (p.state.seen i)
  newest : ∀ i, LastIsNewest (Later instant) (entriesOf (steps i).key (p.state.seen i))

theorem start_orderly {rows : List RunStepLogEntry} {revision : Option Nat} (h : Paths rows) :
    Orderly instant steps (start steps rows revision) where
  safe := start_safe rows revision
  paths := h
  seen _ _ := List.IsChain.nil
  newest _ := lastIsNewest_nil

theorem Orderly.move (h : Orderly instant steps p) (htimely : Timely instant steps p m)
    (hm : p.move (server instant) m = some q) : Orderly instant steps q := by
  have hsafe : q.SafeTo (server instant) (fun i => Rely i) (Guar instant steps)
      (Outcome instant steps) := by
    refine Pool.safeTo_move ?_ ?_ ?_ h.safe hm
    · exact fun i j hij s t hguar => hguar.rely (Ne.symm hij)
    · exact fun j s t hdrift => hdrift.choose.elim
    · exact fun j result s t hout hrely => hout.stable hrely
  match m, hm with
  | .client i choice, hm =>
    have hguar := h.safe.guar_of_move hm
    obtain ⟨o, k, x, hthread, hserve, -⟩ := Pool.move_client hm
    obtain ⟨hrows, hseen⟩ := frame_of_eff ⟨choice, hserve⟩
    obtain ⟨hquery, hcommit⟩ := htimely i choice rfl
    refine ⟨hsafe, ?_, ?_, ?_⟩
    · -- the table changes by a commit of a step that continues what its call has read
      rcases hguar.rows with hsame | ⟨hconcat, hpasses⟩
      · rw [hsame]
        exact h.paths
      · by_cases ho : o = .commit
        · subst ho
          have hread := hcommit k hthread
          have hcontinues := hpasses.continues (h.seen i _) (h.newest i)
          rw [hconcat]
          refine h.paths.concat ?_
          rw [history, hread]
          exact hcontinues
        · rw [hrows ho]
          exact h.paths
    · intro j
      rcases hseen with hsame | ⟨-, hupdate⟩
      · rw [hsame]
        exact h.seen j
      · rw [hupdate]
        by_cases hij : j = i
        · subst hij
          rw [Function.update_self]
          exact h.paths
        · rw [Function.update_of_ne hij]
          exact h.seen j
    · intro j
      rcases hseen with hsame | ⟨⟨key, ho⟩, hupdate⟩
      · rw [hsame]
        exact h.newest j
      · rw [hupdate]
        by_cases hij : j = i
        · subst hij ho
          rw [Function.update_self]
          exact hquery key k hthread
        · rw [Function.update_of_ne hij]
          exact h.newest j

/-- **Timely runs** keep the invariant. -/
theorem orderly_of_run {rows : List RunStepLogEntry} {revision : Option Nat} (hpaths : Paths rows)
    {moves : List (Move ι (Fate × Nat) Empty)}
    (htimely : Pool.Along (server instant) (Timely instant steps) (start steps rows revision) moves)
    (run : (start steps rows revision).run (server instant) moves = some q) :
    Orderly instant steps q :=
  Pool.along_induction (start_orderly hpaths) (fun _ _ _ h htimely hm => h.move htimely hm)
    htimely run

/-- The outcome of a call no statement of which has failed. -/
theorem Orderly.outcome (h : Orderly instant steps q) {result : Except RuntimeError Nat}
    (hresult : q.threads i = .ret result) (hfailed : q.state.failed i = false) :
    ((∃ revision, result = .ok revision) ↔
        Continues (history (steps i).key (q.state.seen i)) (steps i).status) ∧
      ((∃ revision, result = .ok revision) → steps i ∈ q.state.rows) := by
  have hout : Outcome instant steps i result q.state := by
    have hsafe := h.safe i
    rw [hresult] at hsafe
    exact hsafe
  cases result with
  | ok revision =>
    obtain ⟨hrow, hpasses⟩ := hout
    exact ⟨iff_of_true ⟨revision, rfl⟩ (hpasses.continues (h.seen i _) (h.newest i)),
      fun _ => hrow⟩
  | error e =>
    have hnone : ¬ ∃ revision, (.error e : Except RuntimeError Nat) = .ok revision := by
      rintro ⟨revision, hrevision⟩
      cases hrevision
    rcases hout with hfail | hfails
    · rw [hfailed] at hfail
      cases hfail
    · exact ⟨iff_of_false hnone (hfails.not_continues (h.seen i _) (h.newest i)),
        fun hok => absurd hok hnone⟩

end Safety

end PostgresStateStore.RunSteps

end AiOrchestrator
