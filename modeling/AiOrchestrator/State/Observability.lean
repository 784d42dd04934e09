import AiOrchestrator.State.Listings

/-!
# Recorded telemetry

The records of `packages/state/src/observability/observability-store.ts` and the listings of the in-memory store
(`in-memory-observability-store.ts`): what a query selects, the newest record first, cut to a page if the query has
a limit.
-/

namespace AiOrchestrator

inductive TelemetryMetricType
  | counter | histogram | gauge
deriving DecidableEq, Repr

def TelemetryMetricType.text : TelemetryMetricType → String
  | .counter => "counter"
  | .histogram => "histogram"
  | .gauge => "gauge"

inductive TelemetrySpanStatus
  | ok | error
deriving DecidableEq, Repr

/-- `TelemetryMetricRecord`. -/
structure TelemetryMetricRecord where
  id : String
  name : String
  metricType : TelemetryMetricType
  value : ℚ
  tags : Record String
  createdAt : String
  runId : Option String
  correlationId : Option String
  expiresAt : Option String
deriving DecidableEq

/-- `TelemetrySpanRecord`. -/
structure TelemetrySpanRecord where
  id : String
  spanName : String
  durationMs : ℚ
  status : TelemetrySpanStatus
  tags : Record String
  createdAt : String
  runId : Option String
  correlationId : Option String
  taskId : Option String
  role : Option String
  toolName : Option String
  expiresAt : Option String
deriving DecidableEq

structure ListTelemetryMetricsQuery where
  limit : Option Nat := none
  offset : Option Nat := none
  runId : Option String := none
  correlationId : Option String := none
  name : Option String := none
  metricType : Option TelemetryMetricType := none

structure ListTelemetrySpansQuery where
  limit : Option Nat := none
  offset : Option Nat := none
  runId : Option String := none
  correlationId : Option String := none
  taskId : Option String := none
  role : Option String := none
  toolName : Option String := none
  status : Option TelemetrySpanStatus := none

/-- `InMemoryObservabilityStore`: the records in the order in which they came. -/
structure InMemoryObservabilityStore where
  metrics : List TelemetryMetricRecord
  spans : List TelemetrySpanRecord

/-- `wanted && found !== wanted` does not reject a record. -/
def accepts (wanted found : Option String) : Bool := !truthy wanted || found == wanted

/-- `matchesMetricQuery`. -/
def matchesMetricQuery (record : TelemetryMetricRecord) (query : ListTelemetryMetricsQuery) : Bool :=
  accepts query.runId record.runId && accepts query.correlationId record.correlationId &&
    accepts query.name (some record.name) &&
    (query.metricType.isNone || query.metricType == some record.metricType)

/-- `matchesSpanQuery`. -/
def matchesSpanQuery (record : TelemetrySpanRecord) (query : ListTelemetrySpansQuery) : Bool :=
  accepts query.runId record.runId && accepts query.correlationId record.correlationId &&
    accepts query.taskId record.taskId && accepts query.role record.role &&
    accepts query.toolName record.toolName && (query.status.isNone || query.status == some record.status)

/-- `applyPagination` of the store. -/
def applyPagination {α : Type} (records : List α) (offset : Option Nat) : Option Nat → List α
  | none => records.drop (offset.getD 0)
  | some limit => page (offset.getD 0) limit records

namespace InMemoryObservabilityStore

variable (host : Host) (store : InMemoryObservabilityStore)

/-- `listMetrics`. -/
def listMetrics (query : ListTelemetryMetricsQuery) : List TelemetryMetricRecord :=
  applyPagination ((store.metrics.filter fun record => matchesMetricQuery record query).insertionSort
    (NewestFirst host TelemetryMetricRecord.createdAt)) query.offset query.limit

/-- `listSpans`. -/
def listSpans (query : ListTelemetrySpansQuery) : List TelemetrySpanRecord :=
  applyPagination ((store.spans.filter fun record => matchesSpanQuery record query).insertionSort
    (NewestFirst host TelemetrySpanRecord.createdAt)) query.offset query.limit

end InMemoryObservabilityStore

end AiOrchestrator
