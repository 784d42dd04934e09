import AiOrchestrator.Lib.PromiseQueue
import AiOrchestrator.State.Store

/-!
# The in-memory store with its queue

`InMemoryStateStore` as an object (`packages/state/src/in-memory/InMemoryStateStore.ts`,
`revision.ts`): a snapshot, a list of events and a queue of mutations. A mutation is a program
that assigns to these fields and may throw; what it has assigned before it throws stays
assigned. `save` reads the state object of its caller when its turn comes and writes the new
revision back into it, so the callers' objects are part of what a mutation works on.

`exec_snapshot` and `exec_recordRunStep` say of each call when it succeeds and what it leaves.
A commit assigns the state before it copies the events, so one event that `structuredClone`
refuses makes a call fail after it has changed the store. The queue is an instance of `PromiseQueue`;
`Session.Queued.drained` compares it with executing the calls one at a time.
-/

namespace AiOrchestrator

/-! ### Programs with fields and exceptions -/

/-- Programs that assign and may throw. -/
abbrev Mutation (σ : Type) := ExceptT RuntimeError (StateM σ)

namespace Mutation

variable {σ α β : Type}

/-- The outcome of a program and the fields it leaves. -/
def exec (m : Mutation σ α) (s : σ) : Except RuntimeError α × σ := StateT.run (ExceptT.run m) s

@[simp] theorem exec_pure (a : α) (s : σ) : exec (pure a : Mutation σ α) s = (.ok a, s) := rfl

@[simp] theorem exec_throw (e : RuntimeError) (s : σ) :
    exec (throw e : Mutation σ α) s = (.error e, s) := rfl

@[simp] theorem exec_get (s : σ) : exec (get : Mutation σ σ) s = (.ok s, s) := rfl

@[simp] theorem exec_modify (f : σ → σ) (s : σ) :
    exec (modify f : Mutation σ Unit) s = (.ok (), f s) := rfl

theorem exec_bind (m : Mutation σ α) (f : α → Mutation σ β) (s : σ) :
    exec (m >>= f) s =
      match exec m s with
      | (.ok a, s') => exec (f a) s'
      | (.error e, s') => (.error e, s') := by
  simp only [exec, ExceptT.run_bind, StateT.run_bind]
  cases StateT.run (ExceptT.run m) s with
  | mk r s' => cases r <;> rfl

/-- A check that throws. -/
def ofExcept (r : Except RuntimeError α) : Mutation σ α := ExceptT.mk (pure r)

@[simp] theorem exec_ofExcept (r : Except RuntimeError α) (s : σ) :
    exec (ofExcept r) s = (r, s) := rfl

end Mutation

/-! ### The store -/

/-- A number given as an expected revision. -/
inductive RevisionNumber
  | integer (n : Int)
  /-- `NaN`, an infinity or a fraction. -/
  | notInteger
deriving DecidableEq

structure StateWriteOptions where
  expectedRevision : Option RevisionNumber := none
deriving DecidableEq

/-- `expectedRevisionFor`. -/
def expectedRevisionFor (state : ProjectState) (options : StateWriteOptions) :
    Except RuntimeError Nat :=
  match options.expectedRevision with
  | none => .ok state.revision
  | some (.integer (.ofNat n)) => .ok n
  | some (.integer (.negSucc _)) | some .notInteger =>
    .error (.stateStore "Invalid state revision expectation" (some "INVALID_STATE_REVISION"))

/-- An event as a caller passes it. `structuredClone` copies a record of data and refuses a payload
that holds something else, a function say. -/
inductive EventArgument
  | record (event : DomainEvent)
  | notCloneable

/-- The `DataCloneError` of `structuredClone`. -/
def dataCloneError : RuntimeError := .plain "could not be cloned"

/-- `structuredClone` of an event. -/
def EventArgument.structuredClone : EventArgument → Except RuntimeError DomainEvent
  | record event => .ok event
  | notCloneable => .error dataCloneError

namespace EventArgument

/-- The events before the first one that is refused. -/
def cloned : List EventArgument → List DomainEvent
  | record event :: events => event :: cloned events
  | _ => []

/-- All of them can be copied. -/
def Cloneable (events : List EventArgument) : Prop :=
  ∃ records : List DomainEvent, events = records.map record

theorem cloneable_nil : Cloneable [] := ⟨[], rfl⟩

theorem cloneable_cons {event : DomainEvent} {events : List EventArgument} :
    Cloneable (record event :: events) ↔ Cloneable events := by
  constructor
  · rintro ⟨records, h⟩
    cases records with
    | nil => cases h
    | cons first rest => exact ⟨rest, (List.cons.inj h).2⟩
  · rintro ⟨records, rfl⟩
    exact ⟨event :: records, rfl⟩

theorem not_cloneable {events : List EventArgument} : ¬ Cloneable (notCloneable :: events) := by
  rintro ⟨records, h⟩
  cases records <;> cases h

end EventArgument

/-- The fields of the store, and the state objects of its callers. -/
structure InMemoryStateStore where
  events : List DomainEvent
  state : ProjectState
  objects : Nat → ProjectState

/-- The argument of `commitSnapshot`: an object of a caller, or a clone of the snapshot. -/
inductive StateArgument
  | object (id : Nat)
  | clone (state : ProjectState)

def StateArgument.value (store : InMemoryStateStore) : StateArgument → ProjectState
  | .object id => store.objects id
  | .clone state => state

/-- `state.revision = …` on the argument. -/
def StateArgument.setRevision (revision : Nat) (store : InMemoryStateStore) :
    StateArgument → InMemoryStateStore
  | .object id =>
    { store with
      objects := Function.update store.objects id { store.objects id with revision } }
  | .clone _ => store

/-- What a mutation resolves to. -/
structure MutationReply where
  revision : Nat
  /-- `recordFailure`: the failure and the retry count. -/
  failure : Option (FailureRecord × Nat) := none
deriving DecidableEq

/-- The calls that go through the queue, with the ids and times they draw. -/
inductive MutationCall
  | save (object : Nat) (options : StateWriteOptions)
  | saveWithEvents (object : Nat) (events : List EventArgument) (options : StateWriteOptions)
  | recordFailure (id createdAt : String) (input : RecordFailureInput)
      (options : StateWriteOptions)
  | recordArtifact (artifact : ArtifactRecord) (options : StateWriteOptions)
  | recordDecision (decision : DecisionLogItem) (options : StateWriteOptions)
  | recordPolicyDecision (decision : ExecutionPolicyDecision) (options : StateWriteOptions)
  | recordRunStep (step : RunStepLogEntry)
  | markTaskDone (id createdAt taskId summary : String) (options : StateWriteOptions)

namespace InMemoryStateStore

abbrev StoreM := Mutation InMemoryStateStore

/-- The loop over the events of a commit. -/
def push : List EventArgument → StoreM Unit
  | [] => pure ()
  | event :: events => do
    let record ← Mutation.ofExcept event.structuredClone
    modify fun store => { store with events := store.events ++ [record] }
    push events

/-- **`commitSnapshot`** with its assignments. -/
def commit (argument : StateArgument) (options : StateWriteOptions)
    (events : List EventArgument) : StoreM Nat := do
  let store ← get
  let state := argument.value store
  Mutation.ofExcept (assertProjectState state)
  let expectedRevision ← Mutation.ofExcept (expectedRevisionFor state options)
  let currentRevision := store.state.revision
  if expectedRevision ≠ currentRevision then throw stateRevisionConflict
  else do
    let next := { state with revision := currentRevision + 1 }
    Mutation.ofExcept (assertProjectState next)
    modify fun store => { store with state := next }
    modify fun store => argument.setRevision next.revision store
    push events
    pure next.revision

/-- What a call checks before it is enqueued. -/
def refuse : MutationCall → Option RuntimeError
  | .recordArtifact artifact _ =>
    if ArtifactSchemaRegistry.validate artifact ≠ [] then
      some (.stateStore "Artifact schema validation failed")
    else none
  | _ => none

/-- The enqueued action of a call. -/
def action (host : Host) : MutationCall → StoreM MutationReply
  | .save object options => do
    let revision ← commit (.object object) options []
    pure { revision }
  | .saveWithEvents object events options => do
    let revision ← commit (.object object) options events
    pure { revision }
  | .recordFailure id createdAt input options => do
    let current := (← get).state
    if (current.backlog.tasks.get? input.taskId).isNone then
      throw (.stateStore s!"Cannot record failure for missing task {input.taskId}")
    else do
      let failure := buildFailureRecord id createdAt input
      let revision ← commit (.clone (current.countFailure failure)) options []
      pure { revision, failure := some (failure, current.retryCount input.taskId + 1) }
  | .recordArtifact artifact options => do
    let current := (← get).state
    let revision ← commit (.clone (addArtifact current artifact)) options []
    pure { revision }
  | .recordDecision decision options => do
    let current := (← get).state
    let revision ← commit
      (.clone { current with decisions := current.decisions ++ [decision] }) options []
    pure { revision }
  | .recordPolicyDecision decision options => do
    let current := (← get).state
    let revision ← commit
      (.clone { current with policyDecisions := current.policyDecisions ++ [decision] }) options []
    pure { revision }
  | .recordRunStep step => do
    let current := (← get).state
    let next ← Mutation.ofExcept (recordRunStep host current step)
    modify fun store => { store with state := next }
    pure { revision := next.revision }
  | .markTaskDone id createdAt taskId summary options => do
    let current := (← get).state
    if (current.backlog.tasks.get? taskId).isNone then
      throw (.stateStore s!"Cannot mark missing task {taskId} as done")
    else do
      let summaryArtifact := taskSummaryArtifact id createdAt taskId summary
      if ArtifactSchemaRegistry.validate summaryArtifact ≠ [] then
        throw (.stateStore "Artifact schema validation failed")
      else do
        let revision ← commit (.clone (current.markTaskDone taskId summaryArtifact)) options []
        pure { revision }

/-- **A call on its own**: its check, then its action. -/
def exec (host : Host) (c : MutationCall) (store : InMemoryStateStore) :
    Except RuntimeError MutationReply × InMemoryStateStore :=
  match refuse c with
  | some error => (.error error, store)
  | none => (action host c).exec store

/-! ### What a call does -/

/-- The next contents of the store after a commit of `argument`. -/
def committed (store : InMemoryStateStore) (argument : StateArgument)
    (events : List DomainEvent) : InMemoryStateStore where
  events := store.events ++ events
  state := { argument.value store with revision := store.state.revision + 1 }
  objects := (argument.setRevision (store.state.revision + 1) store).objects

/-- **Acceptance** of a commit: the state is valid, and the expected revision, which is that of
the argument where none is given, is the current one. -/
structure Accepts (store : InMemoryStateStore) (argument : StateArgument)
    (options : StateWriteOptions) : Prop where
  valid : (argument.value store).Valid
  expected : options.expectedRevision.getD (.integer (argument.value store).revision) =
    .integer store.state.revision

theorem expectedRevisionFor_ok_iff {state : ProjectState} {options : StateWriteOptions}
    {current : Nat} :
    expectedRevisionFor state options = .ok current ↔
      options.expectedRevision.getD (.integer state.revision) = .integer current := by
  unfold expectedRevisionFor
  match options.expectedRevision with
  | none =>
    constructor
    · intro h
      exact congrArg (fun n : Nat => RevisionNumber.integer n) (Except.ok.inj h)
    · intro h
      exact congrArg Except.ok (Int.ofNat.inj (RevisionNumber.integer.inj h))
  | some (.integer (.ofNat n)) =>
    constructor
    · intro h
      exact congrArg (fun n : Nat => RevisionNumber.integer n) (Except.ok.inj h)
    · intro h
      exact congrArg Except.ok (Int.ofNat.inj (RevisionNumber.integer.inj h))
  | some (.integer (.negSucc n)) => simp
  | some .notInteger => simp

open EventArgument in
theorem exec_push (events : List EventArgument) (store : InMemoryStateStore) :
    Cloneable events ∧ (push events).exec store =
        (.ok (), { store with events := store.events ++ cloned events }) ∨
      ¬ Cloneable events ∧ (push events).exec store =
        (.error dataCloneError, { store with events := store.events ++ cloned events }) := by
  induction events generalizing store with
  | nil =>
    refine Or.inl ⟨cloneable_nil, ?_⟩
    rw [push, Mutation.exec_pure, cloned, List.append_nil]
    exact fun _ _ h => by cases h
  | cons event events ih =>
    cases event with
    | record event =>
      rw [cloneable_cons, cloned, push, Mutation.exec_bind, structuredClone,
        Mutation.exec_ofExcept]
      simp only [Mutation.exec_bind, Mutation.exec_modify]
      rcases ih { store with events := store.events ++ [event] } with ⟨h, hexec⟩ | ⟨h, hexec⟩
      · exact Or.inl ⟨h, by rw [hexec, List.append_assoc, List.singleton_append]⟩
      · exact Or.inr ⟨h, by rw [hexec, List.append_assoc, List.singleton_append]⟩
    | notCloneable =>
      refine Or.inr ⟨not_cloneable, ?_⟩
      rw [push, Mutation.exec_bind, structuredClone, Mutation.exec_ofExcept]
      simp only [cloned, List.append_nil]

open EventArgument in
/-- **Commits**: an accepted one stores the state, the revision and the events, and fails halfway
where an event cannot be copied; any other one changes nothing. -/
theorem exec_commit (store : InMemoryStateStore) (argument : StateArgument)
    (options : StateWriteOptions) (events : List EventArgument) :
    Accepts store argument options ∧
        (Cloneable events ∧ (commit argument options events).exec store =
            (.ok (store.state.revision + 1), store.committed argument (cloned events)) ∨
          ¬ Cloneable events ∧ (commit argument options events).exec store =
            (.error dataCloneError, store.committed argument (cloned events))) ∨
      ¬ Accepts store argument options ∧
        ∃ e, (commit argument options events).exec store = (.error e, store) := by
  simp only [commit, Mutation.exec_bind, Mutation.exec_get, Mutation.exec_ofExcept]
  by_cases hvalid : validateProjectState (argument.value store) = []
  · rw [assertProjectState_of_valid hvalid]
    have hstate := validateProjectState_eq_nil_iff.mp hvalid
    cases hexpected : expectedRevisionFor (argument.value store) options with
    | error e =>
      refine Or.inr ⟨fun h => ?_, e, rfl⟩
      rw [expectedRevisionFor_ok_iff.mpr h.expected] at hexpected
      cases hexpected
    | ok expected =>
      by_cases hcurrent : expected = store.state.revision
      · subst hcurrent
        have hnext := (validateProjectState_revision (argument.value store)
          (store.state.revision + 1)).trans hvalid
        refine Or.inl ⟨⟨hstate, expectedRevisionFor_ok_iff.mp hexpected⟩, ?_⟩
        simp only [ne_eq, not_true_eq_false, if_false, Mutation.exec_bind,
          Mutation.exec_ofExcept, assertProjectState_of_valid hnext, Mutation.exec_modify,
          Mutation.exec_pure]
        have hevents : (argument.setRevision (store.state.revision + 1)
            { store with state := { argument.value store with
                revision := store.state.revision + 1 } }).events = store.events := by
          cases argument <;> rfl
        have hcommitted : { argument.setRevision (store.state.revision + 1)
            { store with state := { argument.value store with
                revision := store.state.revision + 1 } } with
              events := store.events ++ cloned events } =
            store.committed argument (cloned events) := by
          cases argument <;> rfl
        rcases exec_push events (argument.setRevision (store.state.revision + 1)
            { store with state := { argument.value store with
                revision := store.state.revision + 1 } }) with ⟨h, hexec⟩ | ⟨h, hexec⟩
        · rw [hevents, hcommitted] at hexec
          exact Or.inl ⟨h, by rw [hexec]⟩
        · rw [hevents, hcommitted] at hexec
          exact Or.inr ⟨h, by rw [hexec]⟩
      · refine Or.inr ⟨fun h => ?_, stateRevisionConflict, ?_⟩
        · rw [expectedRevisionFor_ok_iff.mpr h.expected] at hexpected
          exact hcurrent (Except.ok.inj hexpected).symm
        · simp only [ne_eq, hcurrent, not_false_eq_true, if_true, Mutation.exec_throw]
  · rw [assertProjectState_of_not hvalid]
    exact Or.inr ⟨fun h => hvalid (validateProjectState_eq_nil_iff.mpr h.valid), _, rfl⟩

end InMemoryStateStore

namespace MutationCall

/-- The calls that commit a snapshot with a new revision: all but `recordRunStep`. -/
def IsSnapshot : MutationCall → Prop
  | recordRunStep _ => False
  | _ => True

instance : DecidablePred IsSnapshot
  | recordRunStep _ => .isFalse id
  | save .. | saveWithEvents .. | recordFailure .. | recordArtifact .. | recordDecision ..
  | recordPolicyDecision .. | markTaskDone .. => .isTrue trivial

def options : MutationCall → StateWriteOptions
  | save _ options | saveWithEvents _ _ options | recordFailure _ _ _ options
  | recordArtifact _ options | recordDecision _ options | recordPolicyDecision _ options
  | markTaskDone _ _ _ _ options => options
  | recordRunStep _ => {}

def events : MutationCall → List EventArgument
  | saveWithEvents _ events _ => events
  | _ => []

open InMemoryStateStore in
/-- What a call commits, `none` where its own checks fail. -/
def argument (store : InMemoryStateStore) : MutationCall → Option StateArgument
  | save object _ | saveWithEvents object _ _ => some (.object object)
  | recordFailure id createdAt input _ =>
    if input.taskId ∈ store.state.backlog.tasks.keys then
      some (.clone (store.state.countFailure (buildFailureRecord id createdAt input)))
    else none
  | recordArtifact artifact _ =>
    if ArtifactSchemaRegistry.validate artifact = [] then
      some (.clone (addArtifact store.state artifact))
    else none
  | recordDecision decision _ =>
    some (.clone { store.state with decisions := store.state.decisions ++ [decision] })
  | recordPolicyDecision decision _ =>
    some (.clone
      { store.state with policyDecisions := store.state.policyDecisions ++ [decision] })
  | markTaskDone id createdAt taskId summary _ =>
    if taskId ∈ store.state.backlog.tasks.keys ∧
        ArtifactSchemaRegistry.validate (taskSummaryArtifact id createdAt taskId summary) = [] then
      some (.clone
        (store.state.markTaskDone taskId (taskSummaryArtifact id createdAt taskId summary)))
    else none
  | recordRunStep _ => none

/-- **A call succeeds** if its own checks pass and its commit is accepted. -/
def Succeeds (c : MutationCall) (store : InMemoryStateStore) : Prop :=
  ∃ argument, c.argument store = some argument ∧
    InMemoryStateStore.Accepts store argument c.options

end MutationCall

namespace InMemoryStateStore

open EventArgument in
/-- **The outcome of a snapshot call**: success with the commit of what the call writes, a failure
that changes nothing, or, where an event of it cannot be copied, a failure after the state was
assigned. -/
def Outcome (host : Host) (c : MutationCall) (store : InMemoryStateStore) : Prop :=
  (∃ argument, c.argument store = some argument ∧ Accepts store argument c.options ∧
    (Cloneable c.events ∧ (∃ reply, reply.revision = store.state.revision + 1 ∧
        exec host c store = (.ok reply, store.committed argument (cloned c.events))) ∨
      ¬ Cloneable c.events ∧
        exec host c store = (.error dataCloneError, store.committed argument (cloned c.events)))) ∨
  ¬ c.Succeeds store ∧ ∃ e, exec host c store = (.error e, store)

variable {host : Host} {c : MutationCall} {store : InMemoryStateStore}

/-- A call that gets past its own checks ends in a commit. -/
theorem outcome_of_commit {argument : StateArgument} (reply : Nat → MutationReply)
    (hargument : c.argument store = some argument)
    (hreply : ∀ revision, (reply revision).revision = revision)
    (heq : exec host c store =
      (commit argument c.options c.events >>= fun revision => pure (reply revision)).exec store) :
    Outcome host c store := by
  rw [Mutation.exec_bind] at heq
  rcases exec_commit store argument c.options c.events with
    ⟨h, ⟨hevents, hexec⟩ | ⟨hevents, hexec⟩⟩ | ⟨h, e, hexec⟩
  · rw [hexec] at heq
    exact Or.inl ⟨argument, hargument, h, Or.inl ⟨hevents, _, hreply _, heq⟩⟩
  · rw [hexec] at heq
    exact Or.inl ⟨argument, hargument, h, Or.inr ⟨hevents, heq⟩⟩
  · rw [hexec] at heq
    refine Or.inr ⟨?_, e, heq⟩
    rintro ⟨argument', hargument', haccepts⟩
    obtain rfl := Option.some.inj (hargument.symm.trans hargument')
    exact h haccepts

theorem outcome_of_failure (hnone : c.argument store = none)
    (hfail : ∃ e, exec host c store = (.error e, store)) : Outcome host c store := by
  refine Or.inr ⟨?_, hfail⟩
  rintro ⟨argument, hargument, -⟩
  rw [hnone] at hargument
  cases hargument

/-- **Snapshot calls** end in one of the three ways. -/
theorem exec_snapshot (host : Host) (hc : c.IsSnapshot) (store : InMemoryStateStore) :
    Outcome host c store := by
  cases c with
  | save object options =>
    exact outcome_of_commit (fun revision => { revision }) rfl (fun _ => rfl) rfl
  | saveWithEvents object events options =>
    exact outcome_of_commit (fun revision => { revision }) rfl (fun _ => rfl) rfl
  | recordDecision decision options =>
    refine outcome_of_commit (fun revision => { revision }) rfl (fun _ => rfl) ?_
    simp only [exec, refuse, action, Mutation.exec_bind, Mutation.exec_get,
      MutationCall.options, MutationCall.events]
  | recordPolicyDecision decision options =>
    refine outcome_of_commit (fun revision => { revision }) rfl (fun _ => rfl) ?_
    simp only [exec, refuse, action, Mutation.exec_bind, Mutation.exec_get,
      MutationCall.options, MutationCall.events]
  | recordRunStep step => cases hc
  | recordFailure id createdAt input options =>
    by_cases hmem : input.taskId ∈ store.state.backlog.tasks.keys
    · have hnone : (store.state.backlog.tasks.get? input.taskId).isNone = false := by
        rw [Option.isNone_eq_false_iff, Dict.isSome_get?_iff]
        exact hmem
      refine outcome_of_commit
        (fun revision =>
          { revision
            failure := some
              (buildFailureRecord id createdAt input, store.state.retryCount input.taskId + 1) })
        (if_pos hmem) (fun _ => rfl) ?_
      simp only [exec, refuse, action, Mutation.exec_bind, Mutation.exec_get, hnone,
        Bool.false_eq_true, if_false, MutationCall.options, MutationCall.events]
    · have hnone : (store.state.backlog.tasks.get? input.taskId).isNone = true := by
        rw [Option.isNone_iff_eq_none]
        exact Dict.get?_eq_none_iff.mpr hmem
      refine outcome_of_failure (if_neg hmem)
        ⟨.stateStore s!"Cannot record failure for missing task {input.taskId}", ?_⟩
      simp only [exec, refuse, action, Mutation.exec_bind, Mutation.exec_get, hnone, if_true,
        Mutation.exec_throw]
  | recordArtifact artifact options =>
    by_cases hvalid : ArtifactSchemaRegistry.validate artifact = []
    · refine outcome_of_commit (fun revision => { revision }) (if_pos hvalid)
        (fun _ => rfl) ?_
      simp only [exec, refuse, hvalid, ne_eq, not_true_eq_false, if_false, action,
        Mutation.exec_bind, Mutation.exec_get, MutationCall.options, MutationCall.events]
    · refine outcome_of_failure (if_neg hvalid)
        ⟨.stateStore "Artifact schema validation failed", ?_⟩
      simp only [exec, refuse, hvalid, ne_eq, not_false_eq_true, if_true]
  | markTaskDone id createdAt taskId summary options =>
    by_cases hmem : taskId ∈ store.state.backlog.tasks.keys
    · have hnone : (store.state.backlog.tasks.get? taskId).isNone = false := by
        rw [Option.isNone_eq_false_iff, Dict.isSome_get?_iff]
        exact hmem
      by_cases hvalid :
          ArtifactSchemaRegistry.validate (taskSummaryArtifact id createdAt taskId summary) = []
      · refine outcome_of_commit (fun revision => { revision })
          (if_pos ⟨hmem, hvalid⟩) (fun _ => rfl) ?_
        simp only [exec, refuse, action, Mutation.exec_bind, Mutation.exec_get, hnone, hvalid,
          Bool.false_eq_true, ne_eq, not_true_eq_false, if_false, MutationCall.options,
          MutationCall.events]
      · refine outcome_of_failure (if_neg fun h => hvalid h.2)
          ⟨.stateStore "Artifact schema validation failed", ?_⟩
        simp only [exec, refuse, action, Mutation.exec_bind, Mutation.exec_get, hnone, hvalid,
          Bool.false_eq_true, ne_eq, not_false_eq_true, if_true, if_false, Mutation.exec_throw]
    · have hnone : (store.state.backlog.tasks.get? taskId).isNone = true := by
        rw [Option.isNone_iff_eq_none]
        exact Dict.get?_eq_none_iff.mpr hmem
      refine outcome_of_failure (if_neg fun h => hmem h.1)
        ⟨.stateStore s!"Cannot mark missing task {taskId} as done", ?_⟩
      simp only [exec, refuse, action, Mutation.exec_bind, Mutation.exec_get, hnone, if_true,
        Mutation.exec_throw]

/-- **`recordRunStep`** appends its step or changes nothing; the revision stays. -/
theorem exec_recordRunStep (host : Host) (step : RunStepLogEntry) (store : InMemoryStateStore) :
    (∃ next, recordRunStep host store.state step = .ok next ∧
      exec host (.recordRunStep step) store =
        (.ok { revision := store.state.revision }, { store with state := next })) ∨
    ∃ e, recordRunStep host store.state step = .error e ∧
      exec host (.recordRunStep step) store = (.error e, store) := by
  simp only [exec, refuse, action, Mutation.exec_bind, Mutation.exec_get, Mutation.exec_ofExcept]
  cases hstep : recordRunStep host store.state step with
  | error e => exact Or.inr ⟨e, rfl, rfl⟩
  | ok next =>
    have hrevision : next.revision = store.state.revision := by
      rw [(recordRunStep_ok hstep).1]
      rfl
    refine Or.inl ⟨next, rfl, ?_⟩
    simp only [Mutation.exec_modify, Mutation.exec_pure, hrevision]

/-- **A failing call changes nothing**, if its events can be copied. -/
theorem exec_error {e : RuntimeError} {store' : InMemoryStateStore}
    (hevents : EventArgument.Cloneable c.events)
    (h : exec host c store = (.error e, store')) : store' = store := by
  by_cases hc : c.IsSnapshot
  · rcases exec_snapshot host hc store with
      ⟨_, -, -, ⟨-, _, -, hexec⟩ | ⟨hnot, -⟩⟩ | ⟨-, e', hexec⟩
    · rw [hexec] at h
      cases h
    · exact absurd hevents hnot
    · rw [hexec] at h
      exact (congrArg Prod.snd h).symm
  · cases c with
    | recordRunStep step =>
      rcases exec_recordRunStep host step store with ⟨next, -, hexec⟩ | ⟨e', -, hexec⟩
      · rw [hexec] at h
        cases h
      · rw [hexec] at h
        exact (congrArg Prod.snd h).symm
    | _ => exact absurd trivial hc

/-- **The stored state stays valid.** -/
theorem valid_exec (host : Host) (c : MutationCall) (hvalid : store.state.Valid) :
    (exec host c store).2.state.Valid := by
  by_cases hc : c.IsSnapshot
  · have hcommitted : ∀ argument events, Accepts store argument c.options →
        (store.committed argument events).state.Valid := by
      intro argument events haccepts
      rw [← validateProjectState_eq_nil_iff]
      exact (validateProjectState_revision _ _).trans
        (validateProjectState_eq_nil_iff.mpr haccepts.valid)
    rcases exec_snapshot host hc store with
      ⟨argument, -, haccepts, ⟨-, _, -, hexec⟩ | ⟨-, hexec⟩⟩ | ⟨-, e, hexec⟩
    · rw [hexec]
      exact hcommitted argument _ haccepts
    · rw [hexec]
      exact hcommitted argument _ haccepts
    · rw [hexec]
      exact hvalid
  · cases c with
    | recordRunStep step =>
      rcases exec_recordRunStep host step store with ⟨next, hnext, hexec⟩ | ⟨e, -, hexec⟩
      · rw [hexec]
        exact (recordRunStep_ok hnext).2
      · rw [hexec]
        exact hvalid
    | _ => exact absurd trivial hc

/-- What is recorded is based on the current revision. -/
theorem revision_of_clone {state : ProjectState}
    (h : c.argument store = some (.clone state)) : state.revision = store.state.revision := by
  cases c <;> simp only [MutationCall.argument] at h
  case save => cases h
  case saveWithEvents => cases h
  case recordRunStep => cases h
  case recordDecision => cases h; rfl
  case recordPolicyDecision => cases h; rfl
  case recordFailure =>
    split at h
    · cases h
      rfl
    · cases h
  case recordArtifact =>
    split at h
    · cases h
      unfold addArtifact
      split <;> rfl
    · cases h
  case markTaskDone =>
    split at h
    · cases h
      rfl
    · cases h

/-! ### The store in use -/

open PromiseQueue

/-- A call gets past the check that is made when it is issued. -/
def admits (c : MutationCall) : Bool := (refuse c).isNone

theorem exec_of_admits (h : admits c = true) :
    exec host c = fun store => (action host c).exec store := by
  funext store
  rw [exec, Option.isNone_iff_eq_none.mp h]

theorem exec_of_not_admits (host : Host) (h : admits c = false) (store : InMemoryStateStore) :
    ∃ e, refuse c = some e ∧ exec host c store = (.error e, store) := by
  unfold admits at h
  cases hrefuse : refuse c with
  | none => simp [hrefuse] at h
  | some e => exact ⟨e, rfl, by rw [exec, hrefuse]⟩

/-- The calls made on a store, and its queue. -/
structure Session where
  calls : List MutationCall
  queue : Loop MutationCall (Except RuntimeError MutationReply) InMemoryStateStore

namespace Session

def start (store : InMemoryStateStore) : Session := ⟨[], .start store⟩

/-- A call is made, and enqueued unless it is refused; or the event loop runs a job. -/
def step (host : Host) (session : Session) : Loop.Event MutationCall → Session
  | .issue c =>
    { calls := session.calls ++ [c]
      queue := if admits c then session.queue.issue c else session.queue }
  | .tick =>
    { session with
      queue := session.queue.tick (fun c store => (action host c).exec store) Except.isOk }

def run (host : Host) (session : Session) (events : List (Loop.Event MutationCall)) : Session :=
  events.foldl (step host) session

def memory (session : Session) : InMemoryStateStore := session.queue.memory

/-- What the promise of the `i`-th call is settled with, `none` while it is pending. An admitted
call waits behind the admitted calls before it. -/
def outcome (session : Session) (i : Nat) : Option (Except RuntimeError MutationReply) :=
  match session.calls[i]? with
  | none => none
  | some c =>
    match refuse c with
    | some e => some (.error e)
    | none => session.queue.outcomes ((session.calls.take i).countP admits)

/-- **The invariant**: the queue holds the admitted calls. -/
structure Queued (host : Host) (store : InMemoryStateStore) (session : Session) : Prop where
  issued : session.queue.issued = session.calls.filter admits
  chained : ∃ m phase,
    Loop.Chained (fun c store => (action host c).exec store) store session.queue m phase

variable {host : Host} {store : InMemoryStateStore} {session : Session}

theorem queued_start (host : Host) (store : InMemoryStateStore) :
    Queued host store (start store) where
  issued := rfl
  chained := ⟨0, .idle, Loop.chained_start store⟩

theorem Queued.step (h : Queued host store session) (event : Loop.Event MutationCall) :
    Queued host store (session.step host event) := by
  obtain ⟨hissued, m, phase, hchained⟩ := h
  cases event with
  | issue c =>
    by_cases hadmits : admits c = true
    · refine ⟨?_, ?_⟩
      · simp only [Session.step, hadmits, if_true, Loop.issued_issue, hissued, List.filter_append,
          List.filter_cons_of_pos, List.filter_nil]
      · simp only [Session.step, hadmits, if_true]
        exact hchained.step Except.isOk (.issue c)
    · refine ⟨?_, ?_⟩
      · simp only [Session.step, hadmits, if_false, hissued, List.filter_append, not_false_eq_true,
          List.filter_cons_of_neg, List.filter_nil, List.append_nil, Bool.false_eq_true]
      · simp only [Session.step, hadmits, if_false, Bool.false_eq_true]
        exact ⟨m, phase, hchained⟩
  | tick =>
    refine ⟨?_, hchained.step Except.isOk .tick⟩
    simp only [Session.step, Loop.issued_tick, hissued]

theorem queued_run (host : Host) (store : InMemoryStateStore)
    (events : List (Loop.Event MutationCall)) :
    Queued host store ((start store).run host events) := by
  suffices h : ∀ session, Queued host store session → Queued host store (session.run host events) from
    h _ (queued_start host store)
  induction events with
  | nil => exact fun _ h => h
  | cons event events ih => exact fun session h => ih _ (h.step event)

theorem runAll_admitted (calls : List MutationCall) (store : InMemoryStateStore) :
    runAll (fun c store => (action host c).exec store) (calls.filter admits) store =
      runAll (exec host) (calls.filter admits) store :=
  runAll_congr (fun _ hc => (exec_of_admits (List.of_mem_filter hc)).symm) store

/-- The store is at any time what the first calls, executed one at a time, have made of it. -/
theorem Queued.memory_eq (h : Queued host store session) :
    ∃ m, session.memory = (runAll (exec host) ((session.calls.filter admits).take m) store).2 := by
  obtain ⟨hissued, m, phase, hchained⟩ := h
  refine ⟨m, ?_⟩
  rw [Session.memory, hchained.memory, hissued]
  exact congrArg Prod.snd (runAll_congr
    (fun _ hc => (exec_of_admits (List.of_mem_filter (List.mem_of_mem_take hc))).symm) store)

theorem Queued.valid (h : Queued host store session) (hvalid : store.state.Valid) :
    session.memory.state.Valid := by
  obtain ⟨m, hm⟩ := h.memory_eq
  rw [hm]
  exact runAll_keeps (I := fun store : InMemoryStateStore => store.state.Valid)
    (fun c _ => valid_exec host c) _ hvalid

/-- A refused call changes nothing when it is executed. -/
theorem exec_refused (c : MutationCall) (store : InMemoryStateStore) (h : admits c = false) :
    (exec host c store).2 = store := by
  obtain ⟨e, -, hexec⟩ := exec_of_not_admits host h store
  rw [hexec]

/-- **Linearization**: once no job is left, the store and the outcomes of all calls, the refused
ones included, are those of executing the calls one at a time in the order of their issue. -/
theorem Queued.drained (h : Queued host store session) (hjobs : session.queue.jobs = []) :
    session.memory = (runAll (exec host) session.calls store).2 ∧
      ∀ i, session.outcome i = (runAll (exec host) session.calls store).1[i]? := by
  obtain ⟨hissued, m, phase, hchained⟩ := h
  obtain ⟨hmemory, houtcomes⟩ := hchained.drained hjobs
  rw [hissued, runAll_admitted] at hmemory houtcomes
  refine ⟨hmemory.trans (runAll_filter exec_refused session.calls store), fun i => ?_⟩
  unfold outcome
  cases hcall : session.calls[i]? with
  | none =>
    rw [List.getElem?_eq_none_iff] at hcall
    rw [List.getElem?_eq_none]
    rwa [length_runAll]
  | some c =>
    cases hadmits : admits c with
    | true =>
      have hrefuse : refuse c = none := Option.isNone_iff_eq_none.mp hadmits
      simp only [hrefuse, houtcomes]
      exact runAll_getElem?_filter exec_refused session.calls store hcall hadmits
    | false =>
      obtain ⟨e, hrefuse, hexec⟩ := exec_of_not_admits host hadmits
        (runAll (exec host) (session.calls.take i) store).2
      simp only [hrefuse]
      rw [runAll_getElem? session.calls store hcall, hexec]

/-- **No call blocks the queue**: the event loop settles every promise. -/
theorem Queued.drains (h : Queued host store session) :
    ∃ n, (session.run host (List.replicate n .tick)).queue.jobs = [] := by
  obtain ⟨-, m, phase, hchained⟩ := h
  obtain ⟨n, hn⟩ := hchained.drains Except.isOk
  refine ⟨n, ?_⟩
  have hqueue : ∀ n session, (Session.run host session (List.replicate n .tick)).queue =
      session.queue.run (fun c store => (action host c).exec store) Except.isOk
        (List.replicate n .tick) := by
    intro n
    induction n with
    | zero => exact fun _ => rfl
    | succ n ih => exact fun session => ih (session.step host .tick)
  rw [hqueue]
  exact hn

end Session

end InMemoryStateStore

end AiOrchestrator
