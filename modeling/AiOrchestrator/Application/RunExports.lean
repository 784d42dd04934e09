import AiOrchestrator.State.AuditLog

/-!
# Exports of a run

The timeline of `getReviewBundle` (`packages/application/src/dashboard-query-service.ts`) and
`getImmutableAuditExport` (`apps/dashboard-api/src/dashboard-query/dashboard-query.service.ts`). Both
take the events of the run from the page that `listEvents` gives without a query: the newest fifty of
all runs.
-/

namespace AiOrchestrator

/-- An entry of the timeline. -/
structure TimelineEntry where
  id : String
  type : DomainEventType
  createdAt : String
  summary : String
  taskId : Option String
  role : Option String

/-- A property of the payload that is a text. -/
def StoredEvent.text? (event : StoredEvent) (name : String) : Option String :=
  match event.payload.lookup name with
  | some (.str s) => some s
  | _ => none

/-- The entry of an event. -/
def timelineEntry (event : StoredEvent) : TimelineEntry where
  id := event.id
  type := event.eventType
  createdAt := event.createdAt
  summary := (event.text? "summary").getD event.eventType.text
  taskId := event.text? "taskId"
  role := event.text? "role"

/-- `ReviewBundleView`, without what the artifacts of the run are shown in. -/
structure ReviewBundleView where
  runId : String
  timeline : List TimelineEntry

/-- The events of a run; an absent or empty id stands for all of them. -/
def filterRun (runId : Option String) (events : List StoredEvent) : List StoredEvent :=
  if truthy runId then events.filter fun event => event.runId = runId else events

/-- **`getReviewBundle`**. -/
def getReviewBundle (host : Host) (history : List StoredEvent) (runId : Option String) :
    Option ReviewBundleView :=
  let events := listEvents host history {}
  if events = [] then none
  else
    let runEvents := filterRun runId events
    let resolvedRunId := runId.or (runEvents.head?.bind StoredEvent.runId)
    match resolvedRunId with
    | none => none
    | some id =>
      if id = "" then none
      else some
        { runId := id
          timeline := (runEvents.insertionSort (OldestFirst host StoredEvent.createdAt)).map
            timelineEntry }

/-- **`getImmutableAuditExport`**. -/
def getImmutableAuditExport (host : Host) (history : List StoredEvent) (runId : Option String) :
    List ImmutableAuditRecord :=
  buildImmutableAuditLog host (filterRun runId (listEvents host history {}))

/-- The page of the newest events. -/
theorem listEvents_default (host : Host) (history : List StoredEvent) :
    listEvents host history {} =
      (history.insertionSort (NewestFirst host StoredEvent.createdAt)).take 50 := rfl

theorem filterRun_some {runId : String} (h : runId ≠ "") (events : List StoredEvent) :
    filterRun (some runId) events = events.filter fun event => event.runId = some runId := by
  rw [filterRun, if_pos]
  simp [truthy, h]

theorem filterRun_empty (events : List StoredEvent) : filterRun (some "") events = events := rfl

end AiOrchestrator
