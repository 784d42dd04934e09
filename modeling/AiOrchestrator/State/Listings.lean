import AiOrchestrator.Core.Artifacts
import AiOrchestrator.Core.Evidence
import AiOrchestrator.Lib.JsonValues
import AiOrchestrator.Lib.Numbers
import AiOrchestrator.Lib.Sorting

/-!
# Listings of the in-memory store

`listEvents` and `listRunSteps` of `packages/state/src/in-memory/InMemoryStateStore.ts`: what a query
selects is sorted with the newest entry first and cut to a page, which has fifty entries when the
query does not say otherwise. The recovery checkpoints of
`packages/state/src/recovery/recovery-checkpoint.store.ts` are read through such a page.
-/

namespace AiOrchestrator

/-! ### Orders by time stamps -/

section Orders

variable {α : Type} (host : Host) (createdAt : α → String)

/-- `left.createdAt.localeCompare(right.createdAt)` does not put `left` behind `right`. -/
def OldestFirst (left right : α) : Prop :=
  host.localeCompare (createdAt left) (createdAt right) ≠ .gt

/-- `right.createdAt.localeCompare(left.createdAt)` does not put `left` behind `right`. -/
def NewestFirst (left right : α) : Prop := OldestFirst host createdAt right left

instance : DecidableRel (OldestFirst host createdAt) := fun _ _ => inferInstanceAs (Decidable (_ ≠ _))

instance : DecidableRel (NewestFirst host createdAt) := fun left right =>
  inferInstanceAs (Decidable (OldestFirst host createdAt right left))

variable [Std.TransCmp host.localeCompare]

instance : Std.Total (OldestFirst host createdAt) where
  total left right := by
    unfold OldestFirst
    rw [@Std.OrientedCmp.eq_swap _ host.localeCompare _ (createdAt left)]
    cases host.localeCompare (createdAt right) (createdAt left) <;> simp

instance : IsTrans α (OldestFirst host createdAt) where
  trans _ _ _ h h' := by
    have hle := Std.TransCmp.isLE_trans (Ordering.isLE_iff_ne_gt.mpr h) (Ordering.isLE_iff_ne_gt.mpr h')
    exact Ordering.isLE_iff_ne_gt.mp hle

instance : Std.Total (NewestFirst host createdAt) where
  total left right := (Std.Total.total (r := OldestFirst host createdAt) left right).symm

instance : IsTrans α (NewestFirst host createdAt) where
  trans _ _ _ h h' := IsTrans.trans (r := OldestFirst host createdAt) _ _ _ h' h

end Orders

/-- `entries.slice(offset, offset + limit)`. -/
def page {α : Type} (offset limit : Nat) (entries : List α) : List α :=
  (entries.drop offset).take limit

/-! ### Events -/

/-- `DomainEvent` with any JSON object as its payload. -/
structure StoredEvent where
  id : String
  eventType : DomainEventType
  createdAt : String
  payload : List (String × Json Decimal)
  runId : Option String
  correlationId : Option String
  /-- No object of the payload has two properties of one name. -/
  distinct : Json.Distinct (.obj payload)

structure ListEventsQuery where
  limit : Option Nat := none
  offset : Option Nat := none
  eventType : Option DomainEventType := none

/-- `listEvents`. -/
def listEvents (host : Host) (events : List StoredEvent) (query : ListEventsQuery) :
    List StoredEvent :=
  let filtered := match query.eventType with
    | some eventType => events.filter fun event : StoredEvent => event.eventType = eventType
    | none => events
  page (query.offset.getD 0) (query.limit.getD 50)
    (filtered.insertionSort (NewestFirst host StoredEvent.createdAt))

/-! ### Run steps -/

structure ListRunStepsQuery where
  runId : Option String := none
  taskId : Option String := none
  limit : Option Nat := none
  offset : Option Nat := none

/-- The steps that a query selects; an empty id selects all. -/
def ListRunStepsQuery.selects (query : ListRunStepsQuery) (step : RunStepLogEntry) : Bool :=
  (!truthy query.runId || some step.runId == query.runId) &&
    (!truthy query.taskId || step.taskId == query.taskId)

/-- **`listRunSteps`**: the log of a single run is verified before it is listed. -/
def listRunSteps (host : Host) (state : ProjectState) (query : ListRunStepsQuery) :
    Except RuntimeError (List RunStepLogEntry) :=
  let filtered := state.execution.runStepLog.filter query.selects
  if truthy query.runId = true ∧ verifyRunStepEvidenceChain host filtered ≠ [] then
    .error (.stateStore "EVIDENCE_INTEGRITY_VIOLATION")
  else
    .ok (page (query.offset.getD 0) (query.limit.getD 50)
      (filtered.insertionSort (NewestFirst host RunStepLogEntry.createdAt)))

/-- Without a run the listing does not fail. -/
theorem listRunSteps_of_task (host : Host) (state : ProjectState) (taskId : String) (limit : Nat) :
    listRunSteps host state { taskId := some taskId, limit := some limit } =
      .ok (((state.execution.runStepLog.filter fun step =>
        taskId == "" || step.taskId == some taskId).insertionSort
          (NewestFirst host RunStepLogEntry.createdAt)).take limit) := by
  have hselects : (ListRunStepsQuery.selects { taskId := some taskId, limit := some limit }) =
      fun step => taskId == "" || step.taskId == some taskId := by
    funext step
    simp [ListRunStepsQuery.selects, truthy, bne]
  rw [listRunSteps, hselects]
  rfl

/-! ### Recovery checkpoints -/

/-- `RecoveryCheckpoint`; its reason is one of the three recovery states. -/
structure RecoveryCheckpoint where
  taskId : String
  runId : String
  stepId : String
  attempt : Nat
  idempotencyKey : String
  traceId : String
  createdAt : String
  reason : RunStepStatus
deriving DecidableEq

/-- `RECOVERY_STATUSES`. -/
def recoveryStatuses : List RunStepStatus := [.failed, .timedOut, .cancelled]

/-- The checkpoint of an entry with a task. -/
def RunStepLogEntry.checkpoint (entry : RunStepLogEntry) (taskId : String) : RecoveryCheckpoint where
  taskId := taskId
  runId := entry.runId
  stepId := entry.stepId
  attempt := entry.attempt
  idempotencyKey := entry.idempotencyKey
  traceId := entry.traceId
  createdAt := entry.createdAt
  reason := entry.status

/-- The checkpoint of an entry, if it names a task. -/
def RunStepLogEntry.checkpoint? (entry : RunStepLogEntry) : Option RecoveryCheckpoint :=
  match entry.taskId with
  | some taskId => if taskId = "" then none else some (entry.checkpoint taskId)
  | none => none

/-- `persist`: what a step leaves for a recovery. -/
def persist (entry : RunStepLogEntry) : Option RecoveryCheckpoint :=
  if entry.status ∈ recoveryStatuses then entry.checkpoint? else none

/-- An entry from which a task is recovered. -/
def RunStepLogEntry.recovers (taskId : String) (entry : RunStepLogEntry) : Bool :=
  entry.status ∈ recoveryStatuses && entry.taskId = some taskId

/-- **`getLatestByTaskId`**. -/
def getLatestByTaskId (host : Host) (state : ProjectState) (taskId : String) :
    Except RuntimeError (Option RecoveryCheckpoint) := do
  let steps ← listRunSteps host state { taskId := some taskId, limit := some 200 }
  let candidate := ((steps.filter (RunStepLogEntry.recovers taskId)).insertionSort
    (NewestFirst host RunStepLogEntry.createdAt)).head?
  pure (candidate.bind RunStepLogEntry.checkpoint?)

/-- `ResumePointer`. -/
structure ResumePointer where
  runId : String
  stepId : String
  nextAttempt : Nat
  traceId : String
  idempotencyKey : String
deriving DecidableEq

/-- **`resumeFromCheckpoint`**. -/
def resumeFromCheckpoint (host : Host) (state : ProjectState) (taskId : String) :
    Except RuntimeError ResumePointer := do
  match ← getLatestByTaskId host state taskId with
  | none => throw (.workflowPolicy "Recovery checkpoint was not found for task resume")
  | some checkpoint =>
    pure
      { runId := checkpoint.runId
        stepId := checkpoint.stepId
        nextAttempt := checkpoint.attempt + 1
        traceId := checkpoint.traceId
        idempotencyKey := s!"{checkpoint.idempotencyKey}:resume:{checkpoint.attempt + 1}" }

end AiOrchestrator
