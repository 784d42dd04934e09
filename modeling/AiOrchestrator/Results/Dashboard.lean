import AiOrchestrator.Application.DashboardQueries
import AiOrchestrator.Results.Scheduling

/-!
# Tenants and pages of the dashboard

Which queries compare the tenant (`tenantScoping_iff`), and which histories are complete lists when their pages are
put together (`pagination_iff`). Slices of one list at consecutive offsets make up the list
(`flatMap_page`), so every history that counts the list it cuts is complete (`pages_of_slices`); the history of
events counts the page it gets (`total_eventsPage`).
-/

namespace AiOrchestrator

open DashboardQueryService

variable {α : Type}

/-! ### Tenants -/

/-- The queries whose input names an organisation and a project. -/
inductive DashboardQuery
  | stateSummary (query : TenantScopeInput)
  | milestones (query : TenantScopeInput)
  | backlog (query : TenantScopeInput)
  | backlogExport (query : TenantScopeInput)
  | latestRunSummary (query : TenantScopeInput)
  | readinessScorecard (query : TenantScopeInput)
  | latestProductionReadinessReview (query : TenantScopeInput) (runId : Option String)
  | events (query : EventHistoryQueryInput)
  | failures (query : FailureHistoryQueryInput)
  | decisions (query : HistoryQueryInput)
  | artifacts (query : ArtifactHistoryQueryInput)
  | metrics (query : HistoryQueryInput)
  | traces (query : TraceAuditQueryInput)

/-- What the queries answer. -/
inductive DashboardAnswer (α : Type)
  | view (answer : α)
  | events (answer : PaginatedView EventHistoryItemView)
  | failures (answer : PaginatedView FailureHistoryItemView)
  | decisions (answer : PaginatedView DecisionHistoryItemView)
  | artifacts (answer : PaginatedView ArtifactHistoryItemView)
  | metrics (answer : PaginatedView MetricRollupItemView)
  | traces (answer : PaginatedView SpanAuditItemView)

namespace DashboardQuery

/-- The organisation and the project that a query names. -/
def scope : DashboardQuery → TenantScopeInput
  | .stateSummary query | .milestones query | .backlog query | .backlogExport query => query
  | .latestRunSummary query | .readinessScorecard query | .latestProductionReadinessReview query _ => query
  | .events query => query.toTenantScopeInput
  | .failures query => query.toTenantScopeInput
  | .decisions query => query.toTenantScopeInput
  | .artifacts query => query.toTenantScopeInput
  | .metrics query => query.toTenantScopeInput
  | .traces query => query.toTenantScopeInput

/-- A query's answer or its error. -/
def run (service : DashboardQueryService α) : DashboardQuery → Except String (DashboardAnswer α)
  | .stateSummary query => (service.getStateSummary query).map .view
  | .milestones query => (service.getMilestones query).map .view
  | .backlog query => (service.getBacklog query).map .view
  | .backlogExport query => (service.getBacklogExport query).map .view
  | .latestRunSummary query => (service.getLatestRunSummary query).map .view
  | .readinessScorecard query => (service.getReadinessScorecard query).map .view
  | .latestProductionReadinessReview query runId =>
    (service.getLatestProductionReadinessReview query runId).map .view
  | .events query => .ok (.events (service.getEvents query))
  | .failures query => .ok (.failures (service.getFailures query))
  | .decisions query => .ok (.decisions (service.getDecisions query))
  | .artifacts query => .ok (.artifacts (service.getArtifacts query))
  | .metrics query => .ok (.metrics (service.getMetricsAudit query))
  | .traces query => .ok (.traces (service.getTraceAudit query))

/-- A query for one of the six histories. -/
def IsHistory : DashboardQuery → Prop
  | .events _ | .failures _ | .decisions _ | .artifacts _ | .metrics _ | .traces _ => True
  | _ => False

end DashboardQuery

/-- Something is named, and it is not what was found. -/
def NamesAnother (named : Option String) (found : String) : Prop :=
  ∃ name, named = some name ∧ name ≠ "" ∧ name ≠ found

/-- A query names an organisation or a project, and it is another one than the state's. -/
def TenantScopeInput.NamesOther (scope : TenantScopeInput) (state : ProjectState) : Prop :=
  NamesAnother scope.orgId state.orgId ∨ NamesAnother scope.projectId state.projectId

/-- An absent name is read as an empty one. -/
theorem namesAnother_iff {named : Option String} {found : String} :
    NamesAnother named found ↔ named.getD "" ≠ "" ∧ named.getD "" ≠ found := by
  cases named with
  | none =>
    refine iff_of_false ?_ fun h => h.1 rfl
    rintro ⟨name, hname, -⟩
    cases hname
  | some name =>
    constructor
    · rintro ⟨name', hname, hne⟩
      rw [Option.some.inj hname]
      exact hne
    · intro hne
      exact ⟨name, rfl, hne⟩

/-- **The comparison** rejects exactly the other tenants. -/
theorem assertTenantScope_eq_error_iff {state : ProjectState} {scope : TenantScopeInput} :
    (∃ message, DashboardQueryService.assertTenantScope state scope = .error message) ↔
      scope.NamesOther state := by
  unfold DashboardQueryService.assertTenantScope TenantScopeInput.NamesOther
  rw [namesAnother_iff, namesAnother_iff]
  dsimp only
  split_ifs with horg hproject
  · exact iff_of_true ⟨_, rfl⟩ (.inl horg)
  · exact iff_of_true ⟨_, rfl⟩ (.inr hproject)
  · exact iff_of_false nofun fun h => h.elim horg hproject

/-- A view of the state is refused to exactly the other tenants. -/
theorem viewOf_eq_error_iff {service : DashboardQueryService α} {query : TenantScopeInput}
    {view : ProjectState → α} :
    (∃ message, (service.viewOf query view).map DashboardAnswer.view = .error message) ↔
      query.NamesOther service.state := by
  rw [← assertTenantScope_eq_error_iff, viewOf]
  cases DashboardQueryService.assertTenantScope service.state query with
  | error message => exact iff_of_true ⟨message, rfl⟩ ⟨message, rfl⟩
  | ok _ => exact iff_of_false nofun nofun

/-- The rejection of a query for another tenant. -/
def TenantScoped (service : DashboardQueryService α) (query : DashboardQuery) : Prop :=
  query.scope.NamesOther service.state → ∃ message, query.run service = .error message

/-- A history is answered for every tenant. -/
theorem run_ne_error {service : DashboardQueryService α} {query : DashboardQuery} (h : query.IsHistory) :
    ¬ ∃ message, query.run service = .error message := by
  cases query with
  | events | failures | decisions | artifacts | metrics | traces => exact nofun
  | stateSummary | milestones | backlog | backlogExport => exact h.elim
  | latestRunSummary | readinessScorecard | latestProductionReadinessReview => exact h.elim

/-- A query for a view of the state is refused to the other tenants. -/
theorem exists_run_eq_error {service : DashboardQueryService α} {query : DashboardQuery}
    (h : ¬ query.IsHistory) (hother : query.scope.NamesOther service.state) :
    ∃ message, query.run service = .error message := by
  cases query with
  | events | failures | decisions | artifacts | metrics | traces => exact (h trivial).elim
  | stateSummary | milestones | backlog | backlogExport => exact viewOf_eq_error_iff.mpr hother
  | latestRunSummary | readinessScorecard => exact viewOf_eq_error_iff.mpr hother
  | latestProductionReadinessReview => exact viewOf_eq_error_iff.mpr hother

/-- **Tenant scoping** is kept by the queries for a view of the state, and by the histories only where the query
does not name another tenant. -/
theorem tenantScoping_iff (service : DashboardQueryService α) (query : DashboardQuery) :
    TenantScoped service query ↔ ¬ (query.IsHistory ∧ query.scope.NamesOther service.state) := by
  constructor
  · rintro h ⟨hhistory, hother⟩
    exact run_ne_error hhistory (h hother)
  · intro h hother
    exact exists_run_eq_error (fun hhistory => h ⟨hhistory, hother⟩) hother

/-- A service without telemetry. -/
def sampleService (state : ProjectState) (events : List StoredEvent) : DashboardQueryService Unit where
  host := codePointHost
  registry := []
  views := ⟨fun _ => (), fun _ => (), fun _ => (), fun _ => (), fun _ => (), fun _ => (), fun _ _ => ()⟩
  state := state
  events := events
  observabilityStore := none

/-- Who asks for the decisions of one project gets those of another. -/
theorem getDecisions_of_other_project :
    ¬ TenantScoped (sampleService (ProjectState.createEmpty none "project-1" "Project" "Summary") [])
      (.decisions { projectId := some "project-2" }) := by
  intro h
  obtain ⟨message, hmessage⟩ := h (.inr ⟨"project-2", rfl, by decide, by decide⟩)
  cases hmessage

/-! ### Pages -/

section Pages

variable {β : Type}

/-- **Slices at consecutive offsets** make up the front of the list. -/
theorem flatMap_page (limit : Nat) (entries : List α) (n : Nat) :
    (List.range n).flatMap (fun k => page (k * limit) limit entries) = entries.take (n * limit) := by
  induction n with
  | zero => rw [Nat.zero_mul, List.take_zero]; rfl
  | succ n ih =>
    calc (List.range (n + 1)).flatMap (fun k => page (k * limit) limit entries)
        = entries.take (n * limit) ++ page (n * limit) limit entries := by
          rw [List.range_succ, List.flatMap_append, ih, List.flatMap_singleton]
      _ = entries.take (n * limit + limit) := List.take_add.symm
      _ = entries.take ((n + 1) * limit) := by rw [Nat.succ_mul]

/-- **A complete history**: behind the pages of the answers stands one list of all selected records, the newest
first, which the pages make up and which every page counts. -/
def Pages (host : Host) (createdAt : α → String) (selected : List α) (view : α → β) (limit : Nat)
    (answer : Nat → PaginatedView β) : Prop :=
  ∃ complete : List α, complete.Perm selected ∧ complete.Pairwise (NewestFirst host createdAt) ∧
    (∀ n, (List.range n).flatMap (fun k => (answer k).items) = (complete.take (n * limit)).map view) ∧
    ∀ k, (answer k).total = complete.length

/-- The pages of a sorted list make it up. -/
theorem flatMap_items_of_slices {complete : List α} {view : α → β} {limit : Nat}
    {answer : Nat → PaginatedView β}
    (hitems : ∀ k, (answer k).items = (page (k * limit) limit complete).map view) (n : Nat) :
    (List.range n).flatMap (fun k => (answer k).items) = (complete.take (n * limit)).map view := by
  calc (List.range n).flatMap (fun k => (answer k).items)
      = (List.range n).flatMap (fun k => (page (k * limit) limit complete).map view) := by
        rw [funext hitems]
    _ = ((List.range n).flatMap fun k => page (k * limit) limit complete).map view :=
        (List.map_flatMap ..).symm
    _ = (complete.take (n * limit)).map view := by rw [flatMap_page]

/-- A history that cuts and counts its sorted list is complete. -/
theorem pages_of_slices {host : Host} [Std.TransCmp host.localeCompare] {createdAt : α → String}
    {selected : List α} {view : α → β} {limit : Nat} {answer : Nat → PaginatedView β}
    (hitems : ∀ k, (answer k).items =
      (page (k * limit) limit (selected.insertionSort (NewestFirst host createdAt))).map view)
    (htotal : ∀ k, (answer k).total = (selected.insertionSort (NewestFirst host createdAt)).length) :
    Pages host createdAt selected view limit answer :=
  ⟨_, List.perm_insertionSort .., List.pairwise_insertionSort .., flatMap_items_of_slices hitems, htotal⟩

end Pages

/-! ### Histories -/

/-- The histories with their filters. -/
inductive HistoryQuery
  | events (query : EventHistoryQueryInput)
  | failures (query : FailureHistoryQueryInput)
  | decisions (query : HistoryQueryInput)
  | artifacts (query : ArtifactHistoryQueryInput)
  | metrics (query : HistoryQueryInput)
  | traces (query : TraceAuditQueryInput)

/-- The input for page `k`. -/
def HistoryQueryInput.atPage (query : HistoryQueryInput) (limit k : Nat) : HistoryQueryInput :=
  { query with limit := some limit, offset := some (k * limit) }

section Histories

variable (service : DashboardQueryService α)

/-- The events of the type that a query names. -/
def selectedEvents (query : EventHistoryQueryInput) : List StoredEvent :=
  match query.eventType with
  | some eventType => service.events.filter fun event : StoredEvent => event.eventType = eventType
  | none => service.events

/-- The rows that the samples of a query are rolled up to. -/
def rollupRows (query : HistoryQueryInput) : List MetricRollupItemView :=
  (Rollup.rollup bucketKey firstRow addToRow (service.metricsOf query)).values

/-- The spans that a query selects. -/
def selectedSpans (query : TraceAuditQueryInput) : List TelemetrySpanRecord :=
  match service.observabilityStore with
  | some store => store.spans.filter fun record => matchesSpanQuery record
      { runId := query.runId, correlationId := query.correlationId, taskId := query.taskId
        role := query.role, toolName := query.toolName, status := query.status }
  | none => []

/-- Page `k` of a history of events. -/
def eventsPage (query : EventHistoryQueryInput) (limit k : Nat) : PaginatedView EventHistoryItemView :=
  service.getEvents { query with toHistoryQueryInput := query.atPage limit k }

/-- The pages of a history make it up, with the right totals. -/
def HistoryQuery.Paginates (limit : Nat) : HistoryQuery → Prop
  | .events query =>
    Pages service.host StoredEvent.createdAt (selectedEvents service query)
      (toEventHistoryItem service.registry) limit (eventsPage service query limit)
  | .failures query =>
    Pages service.host FailureRecord.createdAt (service.state.failures.filter (selectsFailure query))
      toFailureHistoryItem limit fun k =>
        service.getFailures { query with toHistoryQueryInput := query.atPage limit k }
  | .decisions query =>
    Pages service.host DecisionLogItem.createdAt service.state.decisions toDecisionHistoryItem limit fun k =>
      service.getDecisions (query.atPage limit k)
  | .artifacts query =>
    Pages service.host ArtifactRecord.createdAt (service.state.artifacts.filter (selectsArtifact query))
      toArtifactHistoryItem limit fun k =>
        service.getArtifacts { query with toHistoryQueryInput := query.atPage limit k }
  | .metrics query =>
    Pages service.host MetricRollupItemView.lastSeenAt (rollupRows service query) id limit fun k =>
      service.getMetricsAudit (query.atPage limit k)
  | .traces query =>
    Pages service.host TelemetrySpanRecord.createdAt (selectedSpans service query) toSpanAuditItem limit fun k =>
      service.getTraceAudit { query with toHistoryQueryInput := query.atPage limit k }

/-- The page of events that the store returns. -/
theorem listEvents_atPage (query : EventHistoryQueryInput) (limit k : Nat) :
    listEvents service.host service.events
        { limit := some limit, offset := some (k * limit), eventType := query.eventType } =
      page (k * limit) limit
        ((selectedEvents service query).insertionSort (NewestFirst service.host StoredEvent.createdAt)) := by
  unfold listEvents selectedEvents
  cases query.eventType <;> rfl

/-- **The total of events** is the number of events on the page. -/
theorem total_eventsPage (query : EventHistoryQueryInput) (limit k : Nat) :
    (eventsPage service query limit k).total =
      min limit ((selectedEvents service query).length - k * limit) := by
  have htotal : (eventsPage service query limit k).total = (listEvents service.host service.events
        { limit := some limit, offset := some (k * limit), eventType := query.eventType }).length := rfl
  rw [htotal, listEvents_atPage, page, List.length_take, List.length_drop, List.length_insertionSort]

/-- The spans that the store lists. -/
theorem spansOf_eq (query : TraceAuditQueryInput) :
    service.spansOf query =
      (selectedSpans service query).insertionSort (NewestFirst service.host TelemetrySpanRecord.createdAt) := by
  unfold spansOf selectedSpans
  cases service.observabilityStore <;> rfl

variable [Std.TransCmp service.host.localeCompare]

/-- The history of events has right totals only when there are no events. -/
theorem events_paginates_iff (query : EventHistoryQueryInput) (limit : Nat) :
    (HistoryQuery.events query).Paginates service limit ↔ selectedEvents service query = [] := by
  constructor
  · rintro ⟨complete, hperm, -, -, htotal⟩
    -- the page behind the last event counts no event
    have hpast : (eventsPage service query limit (selectedEvents service query).length).total = 0 := by
      rw [total_eventsPage]
      cases limit with
      | zero => exact Nat.zero_min _
      | succ limit =>
        have hle : (selectedEvents service query).length ≤ (selectedEvents service query).length * (limit + 1) :=
          Nat.le_mul_of_pos_right _ limit.succ_pos
        rw [Nat.sub_eq_zero_of_le hle, Nat.min_zero]
    rw [htotal, hperm.length_eq] at hpast
    exact List.eq_nil_of_length_eq_zero hpast
  · intro hnone
    refine pages_of_slices (fun k => ?_) (fun k => ?_)
    · exact congrArg (List.map (toEventHistoryItem service.registry)) (listEvents_atPage service query limit k)
    · rw [total_eventsPage, List.length_insertionSort, hnone, List.length_nil, Nat.zero_sub, Nat.min_zero]

/-- The other histories count the list that they cut. -/
theorem paginates_of_slices (query : HistoryQuery) (limit : Nat) (h : ∀ events, query ≠ .events events) :
    query.Paginates service limit := by
  cases query with
  | events query => exact (h query rfl).elim
  | failures query => exact pages_of_slices (fun k => rfl) (fun k => rfl)
  | decisions query => exact pages_of_slices (fun k => rfl) (fun k => rfl)
  | artifacts query => exact pages_of_slices (fun k => rfl) (fun k => rfl)
  | metrics query => exact pages_of_slices (fun k => (List.map_id _).symm) (fun k => rfl)
  | traces query =>
    refine pages_of_slices (fun k => ?_) (fun k => ?_)
    · show page (k * limit) limit ((service.spansOf query).map toSpanAuditItem) = _
      rw [spansOf_eq, page, page, ← List.map_drop, ← List.map_take]
    · show ((service.spansOf query).map toSpanAuditItem).length = _
      rw [spansOf_eq, List.length_map]

/-- **Pagination**: the pages of every history but that of events make up the complete list and count it; those of
events do so if and only if there are none of the type asked for. -/
theorem pagination_iff (query : HistoryQuery) (limit : Nat) :
    query.Paginates service limit ↔
      ∀ eventQuery, query = .events eventQuery → selectedEvents service eventQuery = [] := by
  by_cases hevents : ∃ eventQuery, query = .events eventQuery
  · obtain ⟨eventQuery, rfl⟩ := hevents
    rw [events_paginates_iff]
    constructor
    · intro hnone other hother
      rw [← HistoryQuery.events.inj hother]
      exact hnone
    · intro h
      exact h eventQuery rfl
  · rw [not_exists] at hevents
    exact iff_of_true (paginates_of_slices service query limit hevents)
      fun eventQuery heq => (hevents eventQuery heq).elim

end Histories

/-- An event of a sample history. -/
def sampleEvent (id createdAt : String) : StoredEvent where
  id := id
  eventType := .taskCompleted
  createdAt := createdAt
  payload := []
  runId := none
  correlationId := none
  distinct := ⟨List.nodup_nil, trivial⟩

/-- A service with two events. -/
def twoEvents : DashboardQueryService Unit :=
  sampleService (ProjectState.createEmpty none "project-1" "Project" "Summary")
    [sampleEvent "event-1" "2026-03-10T00:00:00.000Z", sampleEvent "event-2" "2026-03-10T01:00:00.000Z"]

instance : Std.TransCmp twoEvents.host.localeCompare :=
  inferInstanceAs (Std.TransCmp codePointHost.localeCompare)

/-- A decision of a sample history. -/
def sampleDecision (id createdAt : String) : DecisionLogItem where
  id := id
  title := "Title"
  decision := "Decision"
  rationale := "Rationale"
  affectedAreas := []
  createdAt := createdAt

/-- A service whose project has three decisions, the oldest one recorded first and the newest one
next. -/
def threeDecisions : DashboardQueryService Unit :=
  sampleService
    { ProjectState.createEmpty none "project-1" "Project" "Summary" with
      decisions := [sampleDecision "decision-1" "2026-03-10T00:00:00.000Z",
        sampleDecision "decision-2" "2026-03-10T02:00:00.000Z",
        sampleDecision "decision-3" "2026-03-10T01:00:00.000Z"] }
    []

instance : Std.TransCmp threeDecisions.host.localeCompare :=
  inferInstanceAs (Std.TransCmp codePointHost.localeCompare)

/-- The pages of one decision each make up the three decisions, the newest first, and each counts
all three. -/
theorem pagination_iff_decisions :
    (HistoryQuery.decisions {}).Paginates threeDecisions 1 ∧
      (List.range 4).map (fun k =>
          let page := threeDecisions.getDecisions (({} : HistoryQueryInput).atPage 1 k)
          (page.items.map DecisionHistoryItemView.id, page.total)) =
        [(["decision-2"], 3), (["decision-3"], 3), (["decision-1"], 3), ([], 3)] :=
  ⟨(pagination_iff threeDecisions (.decisions {}) 1).mpr nofun, by decide +kernel⟩

/-- The first of two pages of one event each counts one event. -/
theorem twoEvents_miscounted : ¬ (HistoryQuery.events {}).Paginates twoEvents 1 := by
  rintro ⟨complete, hperm, -, -, htotal⟩
  have hone : (eventsPage twoEvents {} 1 0).total = 2 := by
    rw [htotal, hperm.length_eq]
    rfl
  rw [total_eventsPage] at hone
  cases hone

end AiOrchestrator
