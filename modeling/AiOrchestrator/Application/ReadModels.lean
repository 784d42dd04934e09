import AiOrchestrator.Core.Redaction
import AiOrchestrator.State.Observability

/-!
# Read models of the dashboard

The items of the dashboard's histories (`packages/application/src/read-models.ts`) and how they are made from
the records. Payloads of events are redacted before anything is read from them.
-/

namespace AiOrchestrator

/-- `PaginatedView<TItem>`. -/
structure PaginatedView (α : Type) where
  total : Nat
  limit : Nat
  offset : Nat
  items : List α
deriving DecidableEq

/-- The page of a history whose items are views of the records. -/
def PaginatedView.map {α β : Type} (view : α → β) (answer : PaginatedView α) : PaginatedView β where
  total := answer.total
  limit := answer.limit
  offset := answer.offset
  items := answer.items.map view

/-! ### Events -/

structure EventHistoryItemView where
  id : String
  type : DomainEventType
  createdAt : String
  runId : Option String
  summary : String
  taskId : Option String
  milestoneId : Option String
  role : Option String
deriving DecidableEq

/-- `String(value)` of a text, a number or a Boolean. -/
def scalarText : Json Decimal → Option String
  | .str s => some s
  | .num n => some n.text
  | .bool b => some (toString b)
  | _ => none

/-- `summarizePayload`. -/
def summarizePayload (payload : List (String × Json Decimal)) : String :=
  let parts := (payload.filterMap fun p => (scalarText p.2).map fun text => s!"{p.1}={text}").take 4
  if parts = [] then "No summary available" else String.intercalate " | " parts

/-- `typeof payload[name] === 'string' ? payload[name] : undefined`. -/
def textEntry (payload : List (String × Json Decimal)) (name : String) : Option String :=
  match payload.find? fun p => p.1 = name with
  | some (_, .str s) => some s
  | _ => none

/-- One item of `toEventHistoryView`. -/
def toEventHistoryItem (registry : List String) (event : StoredEvent) : EventHistoryItemView :=
  let payload := Redaction.redactProps registry event.payload
  { id := event.id
    type := event.eventType
    createdAt := event.createdAt
    runId := presentText event.runId
    summary := summarizePayload payload
    taskId := textEntry payload "taskId"
    milestoneId := textEntry payload "milestoneId"
    role := textEntry payload "role" }

/-! ### Failures, decisions and artifacts -/

structure FailureHistoryItemView where
  id : String
  taskId : String
  role : AgentRoleName
  reason : String
  retrySuggested : Bool
  symptoms : List String
  badPatterns : List String
  createdAt : String
deriving DecidableEq

/-- One item of `toFailureHistoryView`. -/
def toFailureHistoryItem (failure : FailureRecord) : FailureHistoryItemView where
  id := failure.id
  taskId := failure.taskId
  role := failure.role
  reason := failure.reason
  retrySuggested := failure.retrySuggested
  symptoms := failure.symptoms
  badPatterns := failure.badPatterns
  createdAt := failure.createdAt

structure DecisionHistoryItemView where
  id : String
  title : String
  decision : String
  rationale : String
  affectedAreas : List String
  createdAt : String
deriving DecidableEq

/-- One item of `toDecisionHistoryView`. -/
def toDecisionHistoryItem (decision : DecisionLogItem) : DecisionHistoryItemView where
  id := decision.id
  title := decision.title
  decision := decision.decision
  rationale := decision.rationale
  affectedAreas := decision.affectedAreas
  createdAt := decision.createdAt

structure ArtifactHistoryItemView where
  id : String
  type : ArtifactType
  title : String
  location : Option String
  taskId : Option String
  runId : Option String
  milestoneId : Option String
  format : Option String
  createdAt : String
deriving DecidableEq

/-- One item of `toArtifactHistoryView`. -/
def toArtifactHistoryItem (artifact : ArtifactRecord) : ArtifactHistoryItemView where
  id := artifact.id
  type := artifact.type
  title := artifact.title
  location := presentText artifact.location
  taskId := presentText (artifact.metadata.get? "taskId")
  runId := presentText (artifact.metadata.get? "runId")
  milestoneId := presentText (artifact.metadata.get? "milestoneId")
  format := presentText (artifact.metadata.get? "format")
  createdAt := artifact.createdAt

/-! ### Telemetry -/

structure MetricRollupItemView where
  name : String
  metricType : TelemetryMetricType
  total : ℚ
  sampleCount : Nat
  lastValue : ℚ
  lastSeenAt : String
  tags : Record String
deriving DecidableEq

structure SpanAuditItemView where
  spanName : String
  runId : Option String
  correlationId : Option String
  taskId : Option String
  role : Option String
  toolName : Option String
  status : TelemetrySpanStatus
  durationMs : ℚ
  createdAt : String
deriving DecidableEq

/-- The item that `getTraceAudit` makes of a span. -/
def toSpanAuditItem (span : TelemetrySpanRecord) : SpanAuditItemView where
  spanName := span.spanName
  runId := presentText span.runId
  correlationId := presentText span.correlationId
  taskId := presentText span.taskId
  role := presentText span.role
  toolName := presentText span.toolName
  status := span.status
  durationMs := span.durationMs
  createdAt := span.createdAt

end AiOrchestrator
