import AiOrchestrator.Lib.Interleave
import AiOrchestrator.State.Memory

/-!
# The PostgreSQL state store

`PostgresStateStore` (`packages/state/src/postgres/PostgresStateStore.ts`) for one tenant and
project, under READ COMMITTED, with the schema in place. Each call has a connection of its own and
is a program over SQL statements. Outside a transaction a statement reads what is committed. The
rows that a transaction inserts are its own until it commits; the advisory lock of the project is
held by one transaction at a time, and a transaction that asks for it waits. Any statement may
fail, before or after the server has executed it, and may lose its connection, which ends the
transaction.

What the column `snapshot_json` makes of a state, redaction included, and what a load makes of that
column, are parameters `encode` and `decode`.

`obtained` is a ghost: the revisions that loads and results have given out so far. A call that is
passed an expected revision of a recording operation can only be issued once that revision has been
obtained.
-/

namespace AiOrchestrator

namespace PostgresStateStore

/-- Rows of `failure_log`, `artifact_log`, `decision_log` and `domain_events`, by the record that
they hold. -/
inductive LogRow
  | failure (record : FailureRecord)
  | artifact (record : ArtifactRecord)
  | decision (record : DecisionLogItem)
  | event (record : DomainEvent)

/-- A row of `project_snapshots`. -/
structure SnapshotRow (Stored : Type) where
  revision : Nat
  snapshot : Stored
deriving DecidableEq

/-- What a transaction has inserted. -/
structure Transaction (Stored : Type) where
  snapshots : List (SnapshotRow Stored) := []
  logs : List LogRow := []

def Transaction.insertSnapshot {Stored : Type} (row : SnapshotRow Stored)
    (tx : Transaction Stored) : Transaction Stored :=
  { tx with snapshots := tx.snapshots ++ [row] }

def Transaction.insertLog {Stored : Type} (row : LogRow) (tx : Transaction Stored) :
    Transaction Stored :=
  { tx with logs := tx.logs ++ [row] }

/-- The committed tables, the open transactions and the advisory lock. -/
structure Database (ι Stored : Type) where
  snapshots : List (SnapshotRow Stored)
  logs : List LogRow
  transactions : ι → Option (Transaction Stored)
  lock : Option ι
  obtained : List Nat

/-- The statements, and the moment at which a call is issued. -/
inductive Statement (Stored : Type)
  | issue (expectedRevision : Option RevisionNumber)
  | begin
  | selectSnapshot
  | insertLog (row : LogRow)
  /-- `SELECT pg_advisory_xact_lock(…)`. -/
  | lock
  | selectRevision
  | insertSnapshot (row : SnapshotRow Stored)
  | commit
  | rollback

@[reducible] def Statement.Res {Stored : Type} : Statement Stored → Type
  | selectSnapshot => Option (SnapshotRow Stored)
  | selectRevision => Option Nat
  | issue _ | begin | insertLog _ | lock | insertSnapshot _ | commit | rollback => Unit

/-- How a statement goes wrong, if it does. -/
inductive Fate
  | executed
  /-- It fails and does nothing. -/
  | failed
  /-- Its connection is lost before it is executed. -/
  | dropped
  /-- It is executed, and the reply is lost. -/
  | unanswered
deriving DecidableEq

section Semantics

variable {ι Stored : Type} [DecidableEq ι]

/-- The later of two rows in `ORDER BY revision DESC`. -/
def later (best : Option (SnapshotRow Stored)) (row : SnapshotRow Stored) :
    Option (SnapshotRow Stored) :=
  match best with
  | none => some row
  | some other => if other.revision ≤ row.revision then some row else some other

/-- The first row in `ORDER BY revision DESC`. -/
def latest (rows : List (SnapshotRow Stored)) : Option (SnapshotRow Stored) := rows.foldl later none

/-- The revision of the committed snapshot, zero before the first one. -/
def currentRevision (rows : List (SnapshotRow Stored)) : Nat :=
  ((latest rows).map SnapshotRow.revision).getD 0

/-- The end of the transaction of the call `i` without its rows. -/
def Database.discard (db : Database ι Stored) (i : ι) : Database ι Stored :=
  { db with
    transactions := Function.update db.transactions i none
    lock := if db.lock = some i then none else db.lock }

/-- The transaction of the call `i` inserts. -/
def Database.insert (db : Database ι Stored) (i : ι)
    (change : Transaction Stored → Transaction Stored) : Database ι Stored :=
  { db with transactions := Function.update db.transactions i ((db.transactions i).map change) }

/-- An expected revision that is passed was given out before. -/
def Database.hasObtained (db : Database ι Stored) : Option RevisionNumber → Bool
  | none => true
  | some (.integer (.ofNat n)) => decide (n ∈ db.obtained)
  | some _ => false

/-- The code of a unique violation. -/
def uniqueViolationCode : String := "23505"

def connectionError : RuntimeError := .plain "Connection terminated"

def uniqueViolation : RuntimeError :=
  { cls := .error, message := "duplicate key value", code := some uniqueViolationCode }

/-- `isPgUniqueViolation`. -/
def isPgUniqueViolation (error : RuntimeError) : Bool := error.code = some uniqueViolationCode

/-- A statement of the call `i`, `none` while it has to wait. -/
def execute (i : ι) :
    (o : Statement Stored) → Database ι Stored → Option (Except RuntimeError o.Res × Database ι Stored)
  | .issue expectedRevision, db =>
    if db.hasObtained expectedRevision then some (.ok (), db) else none
  | .begin, db =>
    some (.ok (), { db with transactions := Function.update db.transactions i (some {}) })
  | .selectSnapshot, db =>
    some (.ok (latest db.snapshots),
      { db with obtained := db.obtained ++ [currentRevision db.snapshots] })
  | .insertLog row, db => some (.ok (), db.insert i (Transaction.insertLog row))
  | .lock, db =>
    if db.lock = none ∨ db.lock = some i then some (.ok (), { db with lock := some i }) else none
  | .selectRevision, db => some (.ok ((latest db.snapshots).map SnapshotRow.revision), db)
  | .insertSnapshot row, db =>
    if row.revision ∈ db.snapshots.map SnapshotRow.revision then
      some (.error uniqueViolation, db)
    else some (.ok (), db.insert i (Transaction.insertSnapshot row))
  | .commit, db =>
    match db.transactions i with
    | none => some (.ok (), db)
    | some tx =>
      some (.ok (),
        { db.discard i with
          snapshots := db.snapshots ++ tx.snapshots
          logs := db.logs ++ tx.logs
          obtained := db.obtained ++ tx.snapshots.map SnapshotRow.revision })
  | .rollback, db => some (.ok (), db.discard i)

/-- PostgreSQL. A `ROLLBACK` that fails has lost its connection. -/
def server : Server ι (Statement Stored) (fun o => Except RuntimeError o.Res) (Database ι Stored)
    Fate Empty where
  serve i fate o db :=
    match fate, o with
    | .executed, o => execute i o db
    | .failed, .rollback | .dropped, _ => some (.error connectionError, db.discard i)
    | .failed, _ => some (.error connectionError, db)
    | .unanswered, o => (execute i o db).map fun (_, db) => (.error connectionError, db)
  drift e := nomatch e

end Semantics

/-! ### Calls -/

section Calls

variable {Stored : Type} (encode : ProjectState → Stored) (decode : Stored → Option ProjectState)
  (initialState : ProjectState)

abbrev Session (Stored : Type) := Act RuntimeError (Statement Stored)
  (fun o => Except RuntimeError o.Res)

def query (o : Statement Stored) : Session Stored o.Res := Act.ask o

/-- What a load makes of the first row. -/
def loadRow : Option (SnapshotRow Stored) → Except RuntimeError ProjectState
  | none => .ok initialState
  | some row =>
    match decode row.snapshot with
    | none => .error (.stateStore "Unable to load project state snapshot")
    | some loaded =>
      if validateProjectState { loaded with revision := row.revision } = [] then
        .ok { loaded with revision := row.revision }
      else .error (.stateStore "Unable to load project state snapshot")

/-- **`load`**. -/
def load : Session Stored ProjectState := do
  let row : Option (SnapshotRow Stored) ← query .selectSnapshot
  Act.ofExcept (loadRow decode initialState row)

/-- `withTransaction`. -/
def withTransaction {α : Type} (action : Session Stored α) : Session Stored α :=
  Act.catching
    (do
      query .begin
      let result ← action
      query .commit
      pure result)
    fun error => do
      query .rollback
      throw (if error.cls = .stateStore then error
        else .stateStore "PostgreSQL state transaction failed")

/-- `lockAndLoadCurrentSnapshotRevision`. -/
def lockAndLoadCurrentSnapshotRevision : Session Stored Nat := do
  query .lock
  let revision : Option Nat ← query .selectRevision
  pure (revision.getD 0)

/-- **`insertSnapshot`**. -/
def insertSnapshot (state : ProjectState) (options : StateWriteOptions) : Session Stored Nat := do
  Act.ofExcept (assertProjectState state)
  let expectedRevision ← Act.ofExcept (expectedRevisionFor state options)
  let revision ← lockAndLoadCurrentSnapshotRevision
  if expectedRevision ≠ revision then throw stateRevisionConflict
  else do
    let snapshot := { state with revision := revision + 1 }
    Act.ofExcept (assertProjectState snapshot)
    Act.catching
      (do
        query (.insertSnapshot ⟨revision + 1, encode snapshot⟩)
        pure (revision + 1))
      fun error => throw (if isPgUniqueViolation error then stateRevisionConflict else error)

/-- The transaction of a mutation: rows of the logs, and the snapshot between them. -/
def transact (before : List LogRow) (state : ProjectState) (options : StateWriteOptions)
    (after : List LogRow) : Session Stored Nat :=
  withTransaction do
    Act.forEach (fun row => query (.insertLog row)) before
    let revision ← insertSnapshot encode state options
    Act.forEach (fun row => query (.insertLog row)) after
    pure revision

/-- **`save`**. -/
def save (state : ProjectState) (options : StateWriteOptions) : Session Stored Nat := do
  Act.ofExcept (assertProjectState state)
  transact encode [] state options []

/-- **`saveWithEvents`**. -/
def saveWithEvents (state : ProjectState) (events : List DomainEvent)
    (options : StateWriteOptions) : Session Stored Nat := do
  Act.ofExcept (assertProjectState state)
  transact encode [] state options (events.map .event)

/-- What the recording operations do: they load, apply a change, and write the result with the
expected revision of their caller or that of the loaded state. -/
def record (change : ProjectState → Except RuntimeError (ProjectState × List LogRow))
    (options : StateWriteOptions) : Session Stored Nat := do
  let current ← load decode initialState
  let (next, logs) ← Act.ofExcept (change current)
  transact encode logs next
    (if options.expectedRevision.isSome then options
      else { expectedRevision := some (.integer current.revision) }) []

end Calls

/-- The change of `recordFailure`. -/
def failureChange (id createdAt : String) (input : RecordFailureInput) (current : ProjectState) :
    Except RuntimeError (ProjectState × List LogRow) :=
  if (current.backlog.tasks.get? input.taskId).isNone then
    .error (.stateStore s!"Cannot record failure for missing task {input.taskId}")
  else
    let failure := buildFailureRecord id createdAt input
    .ok (current.countFailure failure, [.failure failure])

/-- The change of `recordArtifact`. -/
def artifactChange (artifact : ArtifactRecord) (current : ProjectState) :
    Except RuntimeError (ProjectState × List LogRow) :=
  .ok (InMemoryStateStore.addArtifact current artifact, [.artifact artifact])

/-- The change of `recordDecision`. -/
def decisionChange (decision : DecisionLogItem) (current : ProjectState) :
    Except RuntimeError (ProjectState × List LogRow) :=
  .ok ({ current with decisions := current.decisions ++ [decision] }, [.decision decision])

/-- The change of `recordPolicyDecision`; it has no log. -/
def policyDecisionChange (decision : ExecutionPolicyDecision) (current : ProjectState) :
    Except RuntimeError (ProjectState × List LogRow) :=
  .ok ({ current with policyDecisions := current.policyDecisions ++ [decision] }, [])

/-- The change of `markTaskDone`; the summary goes into the event. -/
def doneChange (id createdAt taskId summary : String) (current : ProjectState) :
    Except RuntimeError (ProjectState × List LogRow) :=
  if (current.backlog.tasks.get? taskId).isNone then
    .error (.stateStore s!"Cannot mark missing task {taskId} as done")
  else
    let next := { current with
      backlog := { current.backlog with
        tasks := current.backlog.tasks.modify taskId fun task => { task with status := .done } }
      execution := { current.execution with
        completedTaskIds := ProjectState.pushNew current.execution.completedTaskIds taskId
        activeTaskId := none } }
    let event := makeEvent id createdAt .taskCompleted
      [("taskId", .str taskId), ("summary", .str summary)] current.execution.activeRunId
    .ok (next, [.event event])

/-- The calls, with the ids and times they draw. -/
inductive StoreCall
  | load
  | save (state : ProjectState) (options : StateWriteOptions)
  | saveWithEvents (state : ProjectState) (events : List DomainEvent) (options : StateWriteOptions)
  | recordFailure (id createdAt : String) (input : RecordFailureInput)
      (options : StateWriteOptions)
  | recordArtifact (artifact : ArtifactRecord) (options : StateWriteOptions)
  | recordDecision (decision : DecisionLogItem) (options : StateWriteOptions)
  | recordPolicyDecision (decision : ExecutionPolicyDecision) (options : StateWriteOptions)
  | markTaskDone (id createdAt taskId summary : String) (options : StateWriteOptions)

namespace StoreCall

def options : StoreCall → StateWriteOptions
  | load => {}
  | save _ options | saveWithEvents _ _ options | recordFailure _ _ _ options
  | recordArtifact _ options | recordDecision _ options | recordPolicyDecision _ options
  | markTaskDone _ _ _ _ options => options

/-- The change that a recording operation applies to the snapshot it has loaded. -/
def change : StoreCall → Option (ProjectState → Except RuntimeError (ProjectState × List LogRow))
  | recordFailure id createdAt input _ => some (failureChange id createdAt input)
  | recordArtifact artifact _ => some (artifactChange artifact)
  | recordDecision decision _ => some (decisionChange decision)
  | recordPolicyDecision decision _ => some (policyDecisionChange decision)
  | markTaskDone id createdAt taskId summary _ => some (doneChange id createdAt taskId summary)
  | load | save _ _ | saveWithEvents _ _ _ => none

/-- The expected revision that has to be obtained first: that of a recording operation. -/
def obtains (c : StoreCall) : Option RevisionNumber :=
  if c.change.isSome then c.options.expectedRevision else none

variable {Stored : Type} (encode : ProjectState → Stored) (decode : Stored → Option ProjectState)
  (initialState : ProjectState)

/-- The body of a call. -/
def body : StoreCall → Session Stored Unit
  | load => do
    let _ ← PostgresStateStore.load decode initialState
    pure ()
  | save state options => do
    let _ ← PostgresStateStore.save encode state options
    pure ()
  | saveWithEvents state events options => do
    let _ ← PostgresStateStore.saveWithEvents encode state events options
    pure ()
  | recordFailure id createdAt input options => do
    let _ ← record encode decode initialState (failureChange id createdAt input) options
    pure ()
  | recordArtifact artifact options =>
    if ArtifactSchemaRegistry.validate artifact ≠ [] then
      throw (.stateStore "Artifact schema validation failed")
    else do
      let _ ← record encode decode initialState (artifactChange artifact) options
      pure ()
  | recordDecision decision options => do
    let _ ← record encode decode initialState (decisionChange decision) options
    pure ()
  | recordPolicyDecision decision options => do
    let _ ← record encode decode initialState (policyDecisionChange decision) options
    pure ()
  | markTaskDone id createdAt taskId summary options => do
    let _ ← record encode decode initialState (doneChange id createdAt taskId summary) options
    pure ()

/-- **A call**, from the moment at which it is issued. -/
def session (c : StoreCall) : Session Stored Unit := do
  query (.issue c.obtains)
  c.body encode decode initialState

end StoreCall

/-! ### Interleavings -/

/-- What a client creates its initial state from. -/
structure ProjectInput where
  orgId : Option String
  projectId : String
  projectName : String
  summary : String

/-- `createEmptyProjectState`, which every client passes to its store. -/
def ProjectInput.initialState (input : ProjectInput) : ProjectState :=
  ProjectState.createEmpty input.orgId input.projectId input.projectName input.summary

section Interleavings

variable {ι Stored : Type} (encode : ProjectState → Stored)
  (decode : Stored → Option ProjectState)

/-- **Calls of clients** on committed tables, before the first one is issued. -/
def start (calls : ι → StoreCall) (inputs : ι → ProjectInput)
    (snapshots : List (SnapshotRow Stored)) (logs : List LogRow) :
    Pool ι (Statement Stored) (fun o => Except RuntimeError o.Res) (Except RuntimeError Unit)
      (Database ι Stored) where
  threads i := ((calls i).session encode decode (inputs i).initialState).run
  state := { snapshots, logs, transactions := fun _ => none, lock := none, obtained := [] }

/-- **What a call writes** where `snapshots` are committed: the state and the rows of the logs.
A recording operation applies its change to the committed snapshot. -/
inductive Writes (initialState : ProjectState) (snapshots : List (SnapshotRow Stored)) :
    StoreCall → ProjectState → List LogRow → Prop
  | save (state : ProjectState) (options : StateWriteOptions) :
      Writes initialState snapshots (.save state options) state []
  | saveWithEvents (state : ProjectState) (events : List DomainEvent)
      (options : StateWriteOptions) :
      Writes initialState snapshots (.saveWithEvents state events options) state
        (events.map .event)
  | record {c : StoreCall} {base next : ProjectState} {logs : List LogRow}
      {change : ProjectState → Except RuntimeError (ProjectState × List LogRow)}
      (change_eq : c.change = some change)
      (loaded : loadRow decode initialState (latest snapshots) = .ok base)
      (changed : change base = .ok (next, logs)) :
      Writes initialState snapshots c next logs

/-- **A commit** of the call `c`: the snapshot that it makes of the committed one, at the next
revision, and its rows of the logs. The expected revision, which is that of the written state where
none is given, is the committed one. -/
def Commits (initialState : ProjectState) (c : StoreCall) (s t : Database ι Stored) : Prop :=
  ∃ next logs, Writes decode initialState s.snapshots c next logs ∧
    c.options.expectedRevision.getD (.integer next.revision) =
      .integer (currentRevision s.snapshots) ∧
    t.snapshots = s.snapshots ++ [⟨currentRevision s.snapshots + 1,
      encode { next with revision := currentRevision s.snapshots + 1 }⟩] ∧
    t.logs = s.logs ++ logs

/-! ### Revisions -/

theorem latest_concat (rows : List (SnapshotRow Stored)) {row : SnapshotRow Stored}
    (h : currentRevision rows ≤ row.revision) : latest (rows ++ [row]) = some row := by
  unfold currentRevision at h
  unfold latest at h ⊢
  rw [List.foldl_append, List.foldl_cons, List.foldl_nil]
  cases hbest : rows.foldl later none with
  | none => rfl
  | some best =>
    rw [hbest] at h
    exact if_pos h

theorem currentRevision_concat (rows : List (SnapshotRow Stored)) {row : SnapshotRow Stored}
    (h : currentRevision rows ≤ row.revision) :
    currentRevision (rows ++ [row]) = row.revision := by
  rw [currentRevision, latest_concat rows h]
  rfl

/-- A loaded state carries the committed revision. -/
theorem revision_of_load {input : ProjectInput} {rows : List (SnapshotRow Stored)}
    {base : ProjectState} (h : loadRow decode input.initialState (latest rows) = .ok base) :
    base.revision = currentRevision rows := by
  unfold currentRevision
  cases hlatest : latest rows with
  | none =>
    rw [hlatest] at h
    obtain rfl := Except.ok.inj h
    rfl
  | some row =>
    simp only [hlatest, loadRow] at h
    split at h
    · cases h
    · split at h
      · obtain rfl := Except.ok.inj h
        rfl
      · cases h

/-! ### What the calls guarantee one another -/

section Guarantee

variable (inputs : ι → ProjectInput) (calls : ι → StoreCall)

/-- The revisions given out are not ahead of the table. -/
def Database.Behind (db : Database ι Stored) : Prop :=
  ∀ n ∈ db.obtained, n ≤ currentRevision db.snapshots

/-- **The guarantee** of the call `i`: it leaves the transactions and the lock of the others alone,
and changes the tables by a commit alone, for which it holds the lock. -/
structure Guar (i : ι) (s t : Database ι Stored) : Prop where
  transactions : ∀ j, j ≠ i → t.transactions j = s.transactions j
  lock : ∀ j, j ≠ i → s.lock = some j → t.lock = some j
  tables : t.snapshots = s.snapshots ∧ t.logs = s.logs ∨
    s.lock = some i ∧ Commits encode decode (inputs i).initialState (calls i) s t
  behind : s.Behind → t.Behind

/-- What the call `j` relies on. -/
def Rely (j : ι) (s t : Database ι Stored) : Prop :=
  ∃ i, i ≠ j ∧ Guar encode decode inputs calls i s t

variable {encode decode inputs calls} {i j : ι} {s t : Database ι Stored}

theorem Guar.refl (i : ι) (s : Database ι Stored) : Guar encode decode inputs calls i s s where
  transactions _ _ := rfl
  lock _ _ h := h
  tables := Or.inl ⟨rfl, rfl⟩
  behind := id

theorem Guar.discard [DecidableEq ι] (i : ι) (s : Database ι Stored) :
    Guar encode decode inputs calls i s (s.discard i) where
  transactions j hij := by
    show Function.update s.transactions i none j = s.transactions j
    rw [Function.update_of_ne hij]
  lock j hij h := by
    have hne : s.lock ≠ some i := by
      rw [h]
      exact fun heq => hij (Option.some.inj heq)
    rw [Database.discard, if_neg hne]
    exact h
  tables := Or.inl ⟨rfl, rfl⟩
  behind := id

/-- The committed revision does not fall, and where it stays the snapshots do. -/
theorem Guar.revision (h : Guar encode decode inputs calls i s t) :
    t.snapshots = s.snapshots ∨
      ∃ row, row.revision = currentRevision s.snapshots + 1 ∧
        t.snapshots = s.snapshots ++ [row] := by
  rcases h.tables with ⟨hsame, -⟩ | ⟨-, next, logs, -, -, hsnapshots, -⟩
  · exact Or.inl hsame
  · exact Or.inr ⟨_, rfl, hsnapshots⟩

theorem Rely.transactions (h : Rely encode decode inputs calls j s t) :
    t.transactions j = s.transactions j := by
  obtain ⟨i, hij, hguar⟩ := h
  exact hguar.transactions j hij.symm

/-- The holder of the lock can rely on the snapshots. -/
theorem Rely.locked (h : Rely encode decode inputs calls j s t) (hlock : s.lock = some j) :
    t.lock = some j ∧ t.snapshots = s.snapshots := by
  obtain ⟨i, hij, hguar⟩ := h
  refine ⟨hguar.lock j hij.symm hlock, ?_⟩
  rcases hguar.tables with ⟨hsame, -⟩ | ⟨hother, -⟩
  · exact hsame
  · rw [hlock] at hother
    exact absurd (Option.some.inj hother).symm hij

/-- A fact about the snapshots that a new one does not spoil. -/
def Lasting (p : List (SnapshotRow Stored) → Prop) : Prop :=
  ∀ rows row, row.revision = currentRevision rows + 1 → p rows → p (rows ++ [row])

theorem Rely.lasting {p : List (SnapshotRow Stored) → Prop} (hp : Lasting p)
    (h : Rely encode decode inputs calls j s t) (hs : p s.snapshots) : p t.snapshots := by
  obtain ⟨i, -, hguar⟩ := h
  rcases hguar.revision with hsame | ⟨row, hrevision, hsnapshots⟩
  · rw [hsame]
    exact hs
  · rw [hsnapshots]
    exact hp _ row hrevision hs

theorem Rely.behind (h : Rely encode decode inputs calls j s t) (hs : s.Behind) : t.Behind := by
  obtain ⟨i, -, hguar⟩ := h
  exact hguar.behind hs

/-! ### Statements -/

variable [DecidableEq ι]

theorem Guar.insert (i : ι) (s : Database ι Stored)
    (change : Transaction Stored → Transaction Stored) :
    Guar encode decode inputs calls i s (s.insert i change) where
  transactions j hij := by
    show Function.update s.transactions i _ j = s.transactions j
    rw [Function.update_of_ne hij]
  lock _ _ h := h
  tables := Or.inl ⟨rfl, rfl⟩
  behind := id

/-- Statements other than `COMMIT` leave the tables alone. -/
theorem guar_of_execute {o : Statement Stored} (ho : o ≠ .commit) {x : Except RuntimeError o.Res}
    (h : execute i o s = some (x, t)) : Guar encode decode inputs calls i s t := by
  cases o with
  | commit => exact absurd rfl ho
  | issue expected =>
    simp only [execute] at h
    split at h
    · obtain ⟨-, rfl⟩ := Prod.mk.inj (Option.some.inj h)
      exact Guar.refl i s
    · cases h
  | begin =>
    obtain ⟨-, rfl⟩ := Prod.mk.inj (Option.some.inj h)
    exact ⟨fun j hij => Function.update_of_ne hij _ _, fun _ _ hlock => hlock,
      Or.inl ⟨rfl, rfl⟩, id⟩
  | selectSnapshot =>
    obtain ⟨-, rfl⟩ := Prod.mk.inj (Option.some.inj h)
    refine ⟨fun _ _ => rfl, fun _ _ hlock => hlock, Or.inl ⟨rfl, rfl⟩, fun hbehind n hn => ?_⟩
    rcases List.mem_append.mp hn with hold | hnew
    · exact hbehind n hold
    · exact Nat.le_of_eq (List.mem_singleton.mp hnew)
  | insertLog row =>
    obtain ⟨-, rfl⟩ := Prod.mk.inj (Option.some.inj h)
    exact Guar.insert i s _
  | lock =>
    simp only [execute] at h
    split at h
    · rename_i hfree
      obtain ⟨-, rfl⟩ := Prod.mk.inj (Option.some.inj h)
      refine ⟨fun _ _ => rfl, fun j hij hlock => ?_, Or.inl ⟨rfl, rfl⟩, id⟩
      rw [hlock] at hfree
      rcases hfree with hnone | hown
      · cases hnone
      · exact absurd (Option.some.inj hown) hij
    · cases h
  | selectRevision =>
    obtain ⟨-, rfl⟩ := Prod.mk.inj (Option.some.inj h)
    exact Guar.refl i s
  | insertSnapshot row =>
    simp only [execute] at h
    split at h
    · obtain ⟨-, rfl⟩ := Prod.mk.inj (Option.some.inj h)
      exact Guar.refl i s
    · obtain ⟨-, rfl⟩ := Prod.mk.inj (Option.some.inj h)
      exact Guar.insert i s _
  | rollback =>
    obtain ⟨-, rfl⟩ := Prod.mk.inj (Option.some.inj h)
    exact Guar.discard i s

/-- A statement that is answered was executed; any other one fails. -/
theorem eff_cases {o : Statement Stored} {x : Except RuntimeError o.Res}
    (h : server.eff i o s x t) :
    execute i o s = some (x, t) ∨
      (∃ e, x = .error e) ∧ (t = s ∨ t = s.discard i ∨ ∃ y, execute i o s = some (y, t)) := by
  obtain ⟨fate, hserve⟩ := h
  cases fate with
  | executed => exact Or.inl hserve
  | dropped =>
    obtain ⟨rfl, rfl⟩ := Prod.mk.inj (Option.some.inj hserve)
    exact Or.inr ⟨⟨_, rfl⟩, Or.inr (Or.inl rfl)⟩
  | unanswered =>
    obtain ⟨⟨y, u⟩, hexec, heq⟩ := Option.map_eq_some_iff.mp hserve
    obtain ⟨rfl, rfl⟩ := Prod.mk.inj heq
    exact Or.inr ⟨⟨_, rfl⟩, Or.inr (Or.inr ⟨y, hexec⟩)⟩
  | failed =>
    cases o with
    | rollback =>
      obtain ⟨rfl, rfl⟩ := Prod.mk.inj (Option.some.inj hserve)
      exact Or.inr ⟨⟨_, rfl⟩, Or.inr (Or.inl rfl)⟩
    | _ =>
      obtain ⟨rfl, rfl⟩ := Prod.mk.inj (Option.some.inj hserve)
      exact Or.inr ⟨⟨_, rfl⟩, Or.inl rfl⟩

/-! ### The judgement -/

/-- A part of the call `i` is safe from `s`; where it returns, `Q` holds. -/
structure Runs {α : Type} (encode : ProjectState → Stored) (decode : Stored → Option ProjectState)
    (inputs : ι → ProjectInput) (calls : ι → StoreCall) (i : ι) (m : Session Stored α)
    (Q : α → Database ι Stored → Prop) (s : Database ι Stored) : Prop where
  safe : Act.Safe (server.eff i) (Rely encode decode inputs calls i)
    (Guar encode decode inputs calls i) m (Act.outcome Q fun _ _ => True) s

variable {α β : Type} {Q : β → Database ι Stored → Prop} {P : Database ι Stored → Prop}

theorem runs_pure {a : β} (h : Q a s) : Runs encode decode inputs calls i (pure a) Q s := ⟨h⟩

theorem runs_throw {e : RuntimeError} : Runs encode decode inputs calls i (throw e) Q s :=
  ⟨trivial⟩

theorem Runs.mono {Q' : β → Database ι Stored → Prop} {m : Session Stored β}
    (h : Runs encode decode inputs calls i m Q s) (hQ : ∀ a t, Q a t → Q' a t) :
    Runs encode decode inputs calls i m Q' s :=
  ⟨h.safe.mono fun _ _ hr => Act.outcome_imp hr (fun a => hQ a _) fun _ h => h⟩

theorem runs_bind {m : Session Stored α} {f : α → Session Stored β}
    (h : Runs encode decode inputs calls i m
      (fun a => Runs encode decode inputs calls i (f a) Q) s) :
    Runs encode decode inputs calls i (m >>= f) Q s := by
  refine ⟨(Act.safe_bind m f _ s).mpr (h.safe.mono ?_)⟩
  intro r t hr
  exact Act.outcome_imp hr (fun a ha => ha.safe) fun _ h => h

theorem runs_ofExcept_bind {r : Except RuntimeError α} {f : α → Session Stored β}
    (h : ∀ a, r = .ok a → Runs encode decode inputs calls i (f a) Q s) :
    Runs encode decode inputs calls i (Act.ofExcept r >>= f) Q s := by
  refine runs_bind ⟨?_⟩
  cases r with
  | ok a => exact h a rfl
  | error e => exact trivial

/-- A handler that is safe wherever it starts. -/
theorem runs_catching {m : Session Stored β} {handler : RuntimeError → Session Stored β}
    (h : Runs encode decode inputs calls i m Q s)
    (hhandler : ∀ e s, Runs encode decode inputs calls i (handler e) Q s) :
    Runs encode decode inputs calls i (Act.catching m handler) Q s := by
  refine ⟨(Act.safe_catching m handler _ s).mpr (h.safe.mono ?_)⟩
  intro r t hr
  exact Act.outcome_imp hr (fun a ha => ha) fun e _ => (hhandler e t).safe

/-- **The rule for one statement**: from an assertion that the others keep. -/
theorem runs_query_bind {o : Statement Stored} {f : o.Res → Session Stored β} (hs : P s)
    (hstable : ∀ s t, P s → Rely encode decode inputs calls i s t → P t)
    (hguar : ∀ s x t, P s → execute i o s = some (x, t) → Guar encode decode inputs calls i s t)
    (hok : ∀ s x t, P s → execute i o s = some (.ok x, t) →
      Runs encode decode inputs calls i (f x) Q t) :
    Runs encode decode inputs calls i (query o >>= f) Q s := by
  refine ⟨Act.safe_ask_bind hs hstable ?_ ?_⟩
  · intro t x u ht he
    rcases eff_cases he with hexec | ⟨⟨e, herror⟩, -⟩
    · exact ⟨hguar t _ u ht hexec, (hok t x u ht hexec).safe⟩
    · cases herror
  · intro t e u ht he
    refine ⟨?_, trivial⟩
    rcases eff_cases he with hexec | ⟨-, rfl | rfl | ⟨y, hexec⟩⟩
    · exact hguar t _ u ht hexec
    · exact Guar.refl i u
    · exact Guar.discard i t
    · exact hguar t y u ht hexec

/-! ### Transactions -/

/-- Where the transaction of a call stands: what it has inserted, what is known of the committed
snapshots, and, once it holds the lock, the committed revision. -/
structure Open (p : List (SnapshotRow Stored) → Prop) (i : ι) (tx : Transaction Stored)
    (locked : Option Nat) (s : Database ι Stored) : Prop where
  transaction : s.transactions i = some tx
  known : p s.snapshots
  locked : ∀ n, locked = some n → s.lock = some i ∧ currentRevision s.snapshots = n

variable {p : List (SnapshotRow Stored) → Prop} {tx : Transaction Stored} {locked : Option Nat}

omit [DecidableEq ι] in
theorem Open.rely (hp : Lasting p) (h : Open p i tx locked s)
    (hrely : Rely encode decode inputs calls i s t) : Open p i tx locked t where
  transaction := by rw [hrely.transactions, h.transaction]
  known := hrely.lasting hp h.known
  locked n hn := by
    obtain ⟨hlock, hrevision⟩ := h.locked n hn
    obtain ⟨hlock', hsnapshots⟩ := hrely.locked hlock
    rw [hsnapshots]
    exact ⟨hlock', hrevision⟩

theorem Open.insert (h : Open p i tx locked s) (change : Transaction Stored → Transaction Stored) :
    Open p i (change tx) locked (s.insert i change) where
  transaction := by
    show Function.update s.transactions i _ i = some (change tx)
    rw [Function.update_self, h.transaction]
    rfl
  known := h.known
  locked := h.locked

/-- Rows of the logs. -/
theorem runs_insertLogs (hp : Lasting p) {rows : List LogRow} {R : Unit → Database ι Stored → Prop}
    (h : Open p i tx locked s)
    (hrest : ∀ s, Open p i { tx with logs := tx.logs ++ rows } locked s → R () s) :
    Runs encode decode inputs calls i (Act.forEach (fun row => query (.insertLog row)) rows) R
      s := by
  induction rows generalizing tx s with
  | nil =>
    rw [List.append_nil] at hrest
    exact runs_pure (hrest s h)
  | cons row rows ih =>
    rw [Act.forEach]
    refine runs_query_bind h (fun s t => Open.rely hp)
      (fun s x t _ => guar_of_execute (by simp)) ?_
    intro s x t hopen hexec
    obtain ⟨-, rfl⟩ := Prod.mk.inj (Option.some.inj hexec)
    refine ih (hopen.insert _) fun s hs => hrest s ?_
    rw [Transaction.insertLog, List.append_assoc, List.singleton_append] at hs
    exact hs

/-- After `lockAndLoadCurrentSnapshotRevision` the transaction holds the lock. -/
theorem runs_lockAndLoad (hp : Lasting p) {R : Nat → Database ι Stored → Prop}
    (h : Open p i tx none s)
    (hrest : ∀ s revision, Open p i tx (some revision) s → R revision s) :
    Runs encode decode inputs calls i lockAndLoadCurrentSnapshotRevision R s := by
  refine runs_query_bind h (fun s t => Open.rely hp)
    (fun s x t _ => guar_of_execute (by simp)) ?_
  intro s x t hopen hexec
  simp only [execute] at hexec
  split at hexec
  case isFalse => cases hexec
  obtain ⟨-, rfl⟩ := Prod.mk.inj (Option.some.inj hexec)
  have hlocked : Open p i tx (some (currentRevision s.snapshots)) { s with lock := some i } :=
    ⟨hopen.transaction, hopen.known, fun n hn => ⟨rfl, Option.some.inj hn⟩⟩
  refine runs_query_bind hlocked (fun s t => Open.rely hp)
    (fun s x t _ => guar_of_execute (by simp)) ?_
  intro u x v hu hexec
  obtain ⟨hx, rfl⟩ := Prod.mk.inj (Option.some.inj hexec)
  have hcurrent : x.getD 0 = currentRevision s.snapshots := by
    rw [← Except.ok.inj hx]
    exact (hu.locked _ rfl).2
  refine runs_pure (hrest u _ ?_)
  rw [hcurrent]
  exact hu

/-- **`insertSnapshot`** returns where the expected revision is the committed one and the snapshot
is in the transaction. -/
theorem runs_insertSnapshot (hp : Lasting p) {state : ProjectState} {options : StateWriteOptions}
    {logs : List LogRow} {R : Nat → Database ι Stored → Prop} (h : Open p i ⟨[], logs⟩ none s)
    (hrest : ∀ s revision, expectedRevisionFor state options = .ok revision →
      Open p i ⟨[⟨revision + 1, encode { state with revision := revision + 1 }⟩], logs⟩
        (some revision) s →
      R (revision + 1) s) :
    Runs encode decode inputs calls i (insertSnapshot encode state options) R s := by
  unfold insertSnapshot
  refine runs_ofExcept_bind fun _ _ => runs_ofExcept_bind fun expected hexpected => ?_
  refine runs_bind (runs_lockAndLoad hp h fun s revision hlocked => ?_)
  by_cases hconflict : expected ≠ revision
  · rw [if_pos hconflict]
    exact runs_throw
  rw [if_neg hconflict]
  obtain rfl := not_not.mp hconflict
  refine runs_ofExcept_bind fun _ _ => ?_
  refine runs_catching ?_ fun e s => runs_throw
  refine runs_query_bind hlocked (fun s t => Open.rely hp)
    (fun s x t _ => guar_of_execute (by simp)) ?_
  intro s x t hopen hexec
  simp only [execute] at hexec
  split at hexec
  · cases hexec
  · obtain ⟨-, rfl⟩ := Prod.mk.inj (Option.some.inj hexec)
    exact runs_pure (hrest _ expected hexpected
      (hopen.insert (Transaction.insertSnapshot ⟨expected + 1, encode _⟩)))

/-- **A transaction** is safe if what it writes is what its call writes, wherever its expected
revision is the committed one. -/
theorem runs_transact (hp : Lasting p) {before after : List LogRow} {state : ProjectState}
    {options : StateWriteOptions} (hs : p s.snapshots)
    (hcommit : ∀ rows : List (SnapshotRow Stored), p rows →
      expectedRevisionFor state options = .ok (currentRevision rows) →
      Writes decode (inputs i).initialState rows (calls i) state (before ++ after) ∧
        (calls i).options.expectedRevision.getD (.integer state.revision) =
          .integer (currentRevision rows)) :
    Runs encode decode inputs calls i (transact encode before state options after)
      (fun _ _ => True) s := by
  have hlasting : ∀ s t : Database ι Stored, p s.snapshots →
      Rely encode decode inputs calls i s t → p t.snapshots :=
    fun s t h hrely => hrely.lasting hp h
  refine runs_catching ?_ fun error s => ?_
  · refine runs_query_bind hs hlasting (fun s x t _ => guar_of_execute (by simp)) ?_
    intro s x t hknown hexec
    obtain ⟨-, rfl⟩ := Prod.mk.inj (Option.some.inj hexec)
    have hopen : Open p i {} none { s with
        transactions := Function.update s.transactions i (some {}) } :=
      ⟨Function.update_self .., hknown, fun n hn => by cases hn⟩
    refine runs_bind (runs_bind (runs_insertLogs hp hopen fun s hbefore => ?_))
    refine runs_bind (runs_insertSnapshot hp hbefore fun s revision hexpected hlocked => ?_)
    refine runs_bind (runs_insertLogs hp hlocked fun s hafter => ?_)
    refine runs_pure ?_
    -- the commit
    refine runs_query_bind hafter (fun s t => Open.rely hp) ?_
      fun s x t _ _ => runs_pure trivial
    intro s x t hready hexec
    obtain ⟨hlock, hrevision⟩ := hready.locked revision rfl
    simp only [execute, hready.transaction] at hexec
    obtain ⟨-, rfl⟩ := Prod.mk.inj (Option.some.inj hexec)
    subst hrevision
    obtain ⟨hwrites, hgiven⟩ := hcommit s.snapshots hready.known hexpected
    refine ⟨fun j hij => ?_, fun j hij hother => ?_,
      Or.inr ⟨hlock, state, before ++ after, hwrites, hgiven, rfl, ?_⟩, fun hbehind n hn => ?_⟩
    · show Function.update s.transactions i none j = s.transactions j
      rw [Function.update_of_ne hij]
    · rw [hlock] at hother
      exact absurd (Option.some.inj hother).symm hij
    · simp only [List.nil_append]
    · show n ≤ currentRevision (s.snapshots ++ [_])
      rw [currentRevision_concat _ (Nat.le_succ _)]
      rcases List.mem_append.mp hn with hold | hnew
      · exact (hbehind n hold).trans (Nat.le_succ _)
      · exact Nat.le_of_eq (List.mem_singleton.mp hnew)
  · refine runs_query_bind trivial (fun _ _ _ _ => trivial)
      (fun s x t _ => guar_of_execute (by simp)) fun s x t _ _ => runs_throw

/-! ### The calls -/

omit [DecidableEq ι] in
/-- Recording keeps the revision of what it was applied to. -/
theorem revision_of_change {c : StoreCall} {base next : ProjectState} {logs : List LogRow}
    {change : ProjectState → Except RuntimeError (ProjectState × List LogRow)}
    (hchange : c.change = some change) (h : change base = .ok (next, logs)) :
    next.revision = base.revision := by
  cases c with
  | load | save _ _ | saveWithEvents _ _ _ => cases hchange
  | recordFailure id createdAt input options =>
    obtain rfl := Option.some.inj hchange
    unfold failureChange at h
    split at h
    · cases h
    · obtain ⟨rfl, -⟩ := Prod.mk.inj (Except.ok.inj h)
      rfl
  | recordArtifact artifact options =>
    obtain rfl := Option.some.inj hchange
    obtain ⟨rfl, -⟩ := Prod.mk.inj (Except.ok.inj h)
    unfold InMemoryStateStore.addArtifact
    split <;> rfl
  | recordDecision decision options =>
    obtain rfl := Option.some.inj hchange
    obtain ⟨rfl, -⟩ := Prod.mk.inj (Except.ok.inj h)
    rfl
  | recordPolicyDecision decision options =>
    obtain rfl := Option.some.inj hchange
    obtain ⟨rfl, -⟩ := Prod.mk.inj (Except.ok.inj h)
    rfl
  | markTaskDone id createdAt taskId summary options =>
    obtain rfl := Option.some.inj hchange
    unfold doneChange at h
    split at h
    · cases h
    · obtain ⟨rfl, -⟩ := Prod.mk.inj (Except.ok.inj h)
      rfl

/-- An expected revision that was passed is not ahead of `bound`. -/
def NotAhead (options : StateWriteOptions) (bound : Nat) : Prop :=
  ∀ e, options.expectedRevision = some e → ∃ n : Nat, e = .integer n ∧ n ≤ bound

/-- **What a recording operation knows** of the snapshots once it has loaded: the revision of the
loaded state is not ahead, and while it is the committed one, the loaded state is the committed
snapshot. -/
structure Based (decode : Stored → Option ProjectState) (initialState base : ProjectState)
    (options : StateWriteOptions) (rows : List (SnapshotRow Stored)) : Prop where
  revision_le : base.revision ≤ currentRevision rows
  loaded : currentRevision rows = base.revision →
    loadRow decode initialState (latest rows) = .ok base
  notAhead : NotAhead options base.revision

omit [DecidableEq ι] in
theorem lasting_based (initialState base : ProjectState) (options : StateWriteOptions) :
    Lasting (Based decode initialState base options) := by
  intro rows row hrevision h
  have hcurrent : currentRevision (rows ++ [row]) = currentRevision rows + 1 := by
    rw [currentRevision_concat rows (by omega), hrevision]
  have hle := h.revision_le
  refine ⟨by omega, fun heq => ?_, h.notAhead⟩
  omega

/-- **Recording**: the expected revision lies between that of the loaded state and the committed
one, so where it is the committed one, the loaded state is the committed snapshot. -/
theorem runs_record {change : ProjectState → Except RuntimeError (ProjectState × List LogRow)}
    (hchange : (calls i).change = some change)
    (hs : NotAhead (calls i).options (currentRevision s.snapshots)) :
    Runs encode decode inputs calls i
      (record encode decode (inputs i).initialState change (calls i).options)
      (fun _ _ => True) s := by
  have hlasting : Lasting fun rows : List (SnapshotRow Stored) =>
      NotAhead (calls i).options (currentRevision rows) := by
    intro rows row hrevision h e he
    obtain ⟨n, rfl, hn⟩ := h e he
    rw [currentRevision_concat rows (by omega), hrevision]
    exact ⟨n, rfl, Nat.le_succ_of_le hn⟩
  unfold record load
  refine runs_bind (runs_query_bind hs (fun s t h hrely => hrely.lasting hlasting h)
    (fun s x t _ => guar_of_execute (by simp)) ?_)
  intro s x t hnotAhead hexec
  obtain ⟨hx, rfl⟩ := Prod.mk.inj (Option.some.inj hexec)
  obtain rfl := Except.ok.inj hx
  cases hload : loadRow decode (inputs i).initialState (latest s.snapshots) with
  | error e => exact ⟨trivial⟩
  | ok base =>
    have hbase := revision_of_load decode hload
    refine runs_pure (runs_ofExcept_bind ?_)
    rintro ⟨next, logs⟩ hnext
    have hrevision := revision_of_change hchange hnext
    refine runs_transact (p := Based decode (inputs i).initialState base (calls i).options)
      (lasting_based _ _ _) ⟨Nat.le_of_eq hbase, fun _ => hload, by rwa [hbase]⟩ ?_
    intro rows hbased hexpected
    rw [InMemoryStateStore.expectedRevisionFor_ok_iff] at hexpected
    suffices hcurrent : base.revision = currentRevision rows ∧
        (calls i).options.expectedRevision.getD (.integer next.revision) =
          .integer (currentRevision rows) by
      refine ⟨?_, hcurrent.2⟩
      rw [List.append_nil]
      exact .record hchange (hbased.loaded hcurrent.1.symm) hnext
    cases hgiven : (calls i).options.expectedRevision with
    | none =>
      simp only [hgiven, Option.isSome_none, Bool.false_eq_true, if_false,
        Option.getD_some] at hexpected
      have hsame : base.revision = currentRevision rows :=
        Int.ofNat.inj (RevisionNumber.integer.inj hexpected)
      rw [hrevision, hsame]
      exact ⟨rfl, rfl⟩
    | some e =>
      simp only [hgiven, Option.isSome_some, if_true, Option.getD_some] at hexpected
      obtain ⟨n, hn, hle⟩ := hbased.notAhead e hgiven
      rw [hexpected] at hn
      have hsame : currentRevision rows = n := Int.ofNat.inj (RevisionNumber.integer.inj hn)
      have hbound := hbased.revision_le
      exact ⟨by omega, hexpected⟩

/-- **Saving** writes its argument, whatever is committed. -/
theorem runs_save {state : ProjectState} {options : StateWriteOptions} {after : List LogRow}
    (hoptions : (calls i).options = options)
    (hwrites : ∀ rows : List (SnapshotRow Stored),
      Writes decode (inputs i).initialState rows (calls i) state after) :
    Runs encode decode inputs calls i
      (Act.ofExcept (assertProjectState state) >>= fun _ =>
        transact encode [] state options after) (fun _ _ => True) s := by
  refine runs_ofExcept_bind fun _ _ => ?_
  refine runs_transact (p := fun _ => True) (fun _ _ _ _ => trivial) trivial ?_
  intro rows _ hexpected
  rw [InMemoryStateStore.expectedRevisionFor_ok_iff] at hexpected
  rw [hoptions]
  exact ⟨hwrites rows, hexpected⟩

/-- **Every call is safe.** -/
theorem runs_session (hs : s.Behind) :
    Runs encode decode inputs calls i
      ((calls i).session encode decode (inputs i).initialState) (fun _ _ => True) s := by
  refine runs_query_bind hs (fun s t h hrely => hrely.behind h)
    (fun s x t _ => guar_of_execute (by simp)) ?_
  intro s x t hbehind hexec
  simp only [execute] at hexec
  split at hexec
  case isFalse => cases hexec
  rename_i hobtained
  obtain ⟨-, rfl⟩ := Prod.mk.inj (Option.some.inj hexec)
  have hrecord : ∀ change, (calls i).change = some change →
      Runs encode decode inputs calls i
        (record encode decode (inputs i).initialState change (calls i).options >>= fun _ => pure ())
        (fun _ _ => True) s := by
    intro change hchange
    refine runs_bind ((runs_record hchange ?_).mono fun _ _ _ => runs_pure trivial)
    -- what was obtained is not ahead of the table
    intro e he
    have hobtains : (calls i).obtains = some e := by
      simp only [StoreCall.obtains, hchange, Option.isSome_some, if_true, he]
    rw [hobtains] at hobtained
    match e, hobtained with
    | .integer (.ofNat n), hmem => exact ⟨n, rfl, hbehind n (of_decide_eq_true hmem)⟩
  cases hcall : calls i with
  | load =>
    refine runs_bind (runs_query_bind trivial (fun _ _ _ _ => trivial)
      (fun s x t _ => guar_of_execute (by simp)) fun s x t _ _ => ?_)
    cases loadRow decode (inputs i).initialState x with
    | error e => exact ⟨trivial⟩
    | ok base => exact runs_pure (runs_pure trivial)
  | save state options =>
    refine runs_bind ((runs_save (i := i) (by rw [hcall]; rfl) fun rows => ?_).mono
      fun _ _ _ => runs_pure trivial)
    rw [hcall]
    exact .save state options
  | saveWithEvents state events options =>
    refine runs_bind ((runs_save (i := i) (by rw [hcall]; rfl) fun rows => ?_).mono
      fun _ _ _ => runs_pure trivial)
    rw [hcall]
    exact .saveWithEvents state events options
  | recordArtifact artifact options =>
    have hbody := hrecord (artifactChange artifact) (by rw [hcall]; rfl)
    rw [hcall] at hbody
    by_cases hrefused : ArtifactSchemaRegistry.validate artifact ≠ []
    · rw [StoreCall.body, if_pos hrefused]
      exact runs_throw
    · rw [StoreCall.body, if_neg hrefused]
      exact hbody
  | recordFailure id createdAt input options =>
    have hbody := hrecord (failureChange id createdAt input) (by rw [hcall]; rfl)
    rw [hcall] at hbody
    exact hbody
  | recordDecision decision options =>
    have hbody := hrecord (decisionChange decision) (by rw [hcall]; rfl)
    rw [hcall] at hbody
    exact hbody
  | recordPolicyDecision decision options =>
    have hbody := hrecord (policyDecisionChange decision) (by rw [hcall]; rfl)
    rw [hcall] at hbody
    exact hbody
  | markTaskDone id createdAt taskId summary options =>
    have hbody := hrecord (doneChange id createdAt taskId summary) (by rw [hcall]; rfl)
    rw [hcall] at hbody
    exact hbody

theorem start_safe (snapshots : List (SnapshotRow Stored)) (logs : List LogRow) :
    (start encode decode calls inputs snapshots logs).Safe server
      (Rely encode decode inputs calls) (Guar encode decode inputs calls) := by
  intro i
  have hbehind : (start encode decode calls inputs snapshots logs).state.Behind :=
    fun n hn => by cases hn
  exact ((runs_session hbehind).safe).mono fun _ _ _ => trivial

variable {snapshots : List (SnapshotRow Stored)} {logs : List LogRow}
  {q r : Pool ι (Statement Stored) (fun o => Except RuntimeError o.Res)
    (Except RuntimeError Unit) (Database ι Stored)} {moves : List (Move ι Fate Empty)}

/-- **Every move of every run** leaves the tables alone or commits one call. -/
theorem guar_of_run (run : (start encode decode calls inputs snapshots logs).run server moves =
    some q) {fate : Fate} (step : q.move server (.client i fate) = some r) :
    Guar encode decode inputs calls i q.state r.state :=
  Pool.guar_of_move (Pool.safe_run (fun i _ hij _ _ h => ⟨i, hij, h⟩)
    (fun _ _ _ h => h.choose.elim) (start_safe snapshots logs) run) step

/-- The rows committed since the start, with consecutive revisions. -/
def Consecutive (snapshots rows : List (SnapshotRow Stored)) : Prop :=
  ∃ added, rows = snapshots ++ added ∧
    added.map SnapshotRow.revision = List.range' (currentRevision snapshots + 1) added.length ∧
    currentRevision rows = currentRevision snapshots + added.length

omit [DecidableEq ι] in
theorem Guar.consecutive (h : Guar encode decode inputs calls i s t)
    (hs : Consecutive snapshots s.snapshots) : Consecutive snapshots t.snapshots := by
  rcases h.revision with hsame | ⟨row, hrow, hsnapshots⟩
  · rw [hsame]
    exact hs
  · obtain ⟨added, hadded, hrevisions, hcurrent⟩ := hs
    refine ⟨added ++ [row], ?_, ?_, ?_⟩
    · rw [hsnapshots, hadded, List.append_assoc]
    · rw [List.map_append, hrevisions, List.length_append, List.length_singleton,
        List.range'_1_concat, List.map_singleton, hrow, hcurrent]
      congr 2
      omega
    · rw [hsnapshots, currentRevision_concat _ (by omega), hrow, hcurrent, List.length_append,
        List.length_singleton]
      omega

/-- **Revisions are consecutive** in every run. -/
theorem consecutive_of_run
    (run : (start encode decode calls inputs snapshots logs).run server moves = some q) :
    Consecutive snapshots q.state.snapshots :=
  Pool.invariant_of_safe (I := fun db : Database ι Stored => Consecutive snapshots db.snapshots)
    (fun i _ hij _ _ h => ⟨i, hij, h⟩) (fun _ _ _ h => h.choose.elim)
    (fun _ _ _ hs h => h.consecutive hs) (fun _ _ _ h => h.choose.elim)
    (start_safe snapshots logs) ⟨[], (List.append_nil _).symm, rfl, rfl⟩ run

end Guarantee

end Interleavings

end PostgresStateStore

end AiOrchestrator
