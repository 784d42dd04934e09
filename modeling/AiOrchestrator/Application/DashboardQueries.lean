import AiOrchestrator.Application.ReadModels
import AiOrchestrator.Lib.FlatObjects
import AiOrchestrator.Lib.Rollup

/-!
# The queries of the dashboard

`DashboardQueryService` of `packages/application/src/dashboard-query-service.ts`. Seven queries answer with a view
of the loaded state after they have compared the tenant with the one asked for; six histories are filtered, sorted
and cut to a page, partly here and partly in the stores.
-/

namespace AiOrchestrator

structure TenantScopeInput where
  orgId : Option String := none
  projectId : Option String := none

structure HistoryQueryInput extends TenantScopeInput where
  limit : Option Nat := none
  offset : Option Nat := none
  runId : Option String := none
  correlationId : Option String := none

structure TraceAuditQueryInput extends HistoryQueryInput where
  taskId : Option String := none
  role : Option String := none
  toolName : Option String := none
  status : Option TelemetrySpanStatus := none

structure EventHistoryQueryInput extends HistoryQueryInput where
  eventType : Option DomainEventType := none

structure FailureHistoryQueryInput extends HistoryQueryInput where
  taskId : Option String := none

structure ArtifactHistoryQueryInput extends HistoryQueryInput where
  type : Option String := none

/-- The views of a state that seven of the queries answer with, in one type of answers `α`. -/
structure DashboardViews (α : Type) where
  toDashboardStateView : ProjectState → α
  toMilestoneListView : ProjectState → α
  toBacklogView : Backlog → α
  toBacklogExportView : ProjectState → α
  toLatestRunSummaryView : ProjectState → α
  toReadinessScorecardView : ProjectState → α
  latestProductionReadinessReview : ProjectState → Option String → α

/-- `DashboardQueryService` with the contents of its stores and the secrets that are registered. -/
structure DashboardQueryService (α : Type) where
  host : Host
  registry : List String
  views : DashboardViews α
  state : ProjectState
  events : List StoredEvent
  observabilityStore : Option InMemoryObservabilityStore

namespace DashboardQueryService

/-- `assertTenantScope`. -/
def assertTenantScope (state : ProjectState) (scope : TenantScopeInput) : Except String Unit :=
  let orgId := scope.orgId.getD ""
  let projectId := scope.projectId.getD ""
  if orgId ≠ "" ∧ orgId ≠ state.orgId then .error s!"Tenant org mismatch: requested {orgId}"
  else if projectId ≠ "" ∧ projectId ≠ state.projectId then
    .error s!"Tenant project mismatch: requested {projectId}"
  else .ok ()

variable {α : Type} (service : DashboardQueryService α)

/-! ### Views of the state -/

/-- A view of the state for its tenant. -/
def viewOf (query : TenantScopeInput) (view : ProjectState → α) : Except String α := do
  DashboardQueryService.assertTenantScope service.state query
  pure (view service.state)

/-- `getStateSummary`. -/
def getStateSummary (query : TenantScopeInput) : Except String α :=
  service.viewOf query service.views.toDashboardStateView

/-- `getMilestones`. -/
def getMilestones (query : TenantScopeInput) : Except String α :=
  service.viewOf query service.views.toMilestoneListView

/-- `getBacklog`. -/
def getBacklog (query : TenantScopeInput) : Except String α :=
  service.viewOf query fun state => service.views.toBacklogView state.backlog

/-- `getBacklogExport`. -/
def getBacklogExport (query : TenantScopeInput) : Except String α :=
  service.viewOf query service.views.toBacklogExportView

/-- `getLatestRunSummary`. -/
def getLatestRunSummary (query : TenantScopeInput) : Except String α :=
  service.viewOf query service.views.toLatestRunSummaryView

/-- `getReadinessScorecard`. -/
def getReadinessScorecard (query : TenantScopeInput) : Except String α :=
  service.viewOf query service.views.toReadinessScorecardView

/-- `getLatestProductionReadinessReview`. -/
def getLatestProductionReadinessReview (query : TenantScopeInput) (runId : Option String) :
    Except String α :=
  service.viewOf query fun state => service.views.latestProductionReadinessReview state runId

/-! ### Histories -/

/-- The limit of `normalizeHistoryQuery`. -/
def normalizedLimit (query : HistoryQueryInput) : Nat := query.limit.getD 25

/-- The offset of `normalizeHistoryQuery`. -/
def normalizedOffset (query : HistoryQueryInput) : Nat := query.offset.getD 0

/-- A page of a list with the length of the whole list. -/
def paginated {β : Type} (query : HistoryQueryInput) (items : List β) : PaginatedView β where
  total := items.length
  limit := normalizedLimit query
  offset := normalizedOffset query
  items := page (normalizedOffset query) (normalizedLimit query) items

/-- `getEvents`: the total is counted on the page that the store returns. -/
def getEvents (query : EventHistoryQueryInput) : PaginatedView EventHistoryItemView :=
  let limit := normalizedLimit query.toHistoryQueryInput
  let offset := normalizedOffset query.toHistoryQueryInput
  let events := listEvents service.host service.events
    { limit := some limit, offset := some offset, eventType := query.eventType }
  { total := events.length, limit := limit, offset := offset
    items := events.map (toEventHistoryItem service.registry) }

/-- The failures that a query selects. -/
def selectsFailure (query : FailureHistoryQueryInput) (failure : FailureRecord) : Bool :=
  accepts query.taskId (some failure.taskId)

/-- `getFailures`. -/
def getFailures (query : FailureHistoryQueryInput) : PaginatedView FailureHistoryItemView :=
  let failures := (service.state.failures.filter (selectsFailure query)).insertionSort
    (NewestFirst service.host FailureRecord.createdAt)
  (paginated query.toHistoryQueryInput failures).map toFailureHistoryItem

/-- `getDecisions`. -/
def getDecisions (query : HistoryQueryInput) : PaginatedView DecisionHistoryItemView :=
  let allDecisions := service.state.decisions.insertionSort
    (NewestFirst service.host DecisionLogItem.createdAt)
  (paginated query allDecisions).map toDecisionHistoryItem

/-- The artifacts that a query selects. -/
def selectsArtifact (query : ArtifactHistoryQueryInput) (artifact : ArtifactRecord) : Bool :=
  accepts query.type (some artifact.type.text)

/-- `getArtifacts`. -/
def getArtifacts (query : ArtifactHistoryQueryInput) : PaginatedView ArtifactHistoryItemView :=
  let allArtifacts := (service.state.artifacts.filter (selectsArtifact query)).insertionSort
    (NewestFirst service.host ArtifactRecord.createdAt)
  (paginated query.toHistoryQueryInput allArtifacts).map toArtifactHistoryItem

/-! ### Telemetry -/

/-- The key of a sample's bucket. -/
def bucketKey (metric : TelemetryMetricRecord) : String :=
  s!"{metric.metricType.text}:{metric.name}:{Json.flatText Decimal.text metric.tags.entries}"

/-- The row that a sample begins. -/
def firstRow (metric : TelemetryMetricRecord) : MetricRollupItemView where
  name := metric.name
  metricType := metric.metricType
  total := metric.value
  sampleCount := 1
  lastValue := metric.value
  lastSeenAt := metric.createdAt
  tags := metric.tags

/-- A further sample in a row. -/
def addToRow (existing : MetricRollupItemView) (metric : TelemetryMetricRecord) : MetricRollupItemView :=
  { existing with
    total := existing.total + metric.value
    sampleCount := existing.sampleCount + 1
    lastValue := metric.value
    lastSeenAt := metric.createdAt }

/-- The samples of a query, as the store lists them. -/
def metricsOf (query : HistoryQueryInput) : List TelemetryMetricRecord :=
  match service.observabilityStore with
  | some store =>
    store.listMetrics service.host { runId := query.runId, correlationId := query.correlationId }
  | none => []

/-- `getMetricsAudit`. -/
def getMetricsAudit (query : HistoryQueryInput) : PaginatedView MetricRollupItemView :=
  let buckets := Rollup.rollup bucketKey firstRow addToRow (service.metricsOf query)
  paginated query (buckets.values.insertionSort
    (NewestFirst service.host MetricRollupItemView.lastSeenAt))

/-- The spans of a query, as the store lists them. -/
def spansOf (query : TraceAuditQueryInput) : List TelemetrySpanRecord :=
  match service.observabilityStore with
  | some store =>
    store.listSpans service.host
      { runId := query.runId, correlationId := query.correlationId, taskId := query.taskId
        role := query.role, toolName := query.toolName, status := query.status }
  | none => []

/-- `getTraceAudit`. -/
def getTraceAudit (query : TraceAuditQueryInput) : PaginatedView SpanAuditItemView :=
  paginated query.toHistoryQueryInput ((service.spansOf query).map toSpanAuditItem)

end DashboardQueryService

end AiOrchestrator
