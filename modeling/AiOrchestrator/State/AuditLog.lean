import AiOrchestrator.Lib.PropertyNames
import AiOrchestrator.State.Listings

/-!
# The immutable audit log

`buildImmutableAuditLog` of `packages/state/src/audit/immutable-audit-log.ts`: events in the order of
their time stamps, each with a checksum over itself, its index and the checksum before it. What is
hashed is written by `canonicalizeEvidencePayload` of
`packages/core/src/evidence/run-step-evidence.ts`, which copies every object with its names sorted. The
copy is filled by assignments, and an assignment to `__proto__` makes no property, so a property of
this name is not written.

`createChecksum_eq_iff` says what a checksum covers, and `lastChecksum_eq_iff` what the last checksum of
a log does.
-/

namespace AiOrchestrator

/-- The texts of `DOMAIN_EVENT_TYPES`. -/
def DomainEventType.text : DomainEventType → String
  | .bootstrapCompleted => "BOOTSTRAP_COMPLETED"
  | .discoveryCompleted => "DISCOVERY_COMPLETED"
  | .architectureAnalyzed => "ARCHITECTURE_ANALYZED"
  | .backlogPlanned => "BACKLOG_PLANNED"
  | .taskSplit => "TASK_SPLIT"
  | .releaseAssessed => "RELEASE_ASSESSED"
  | .stateIntegrityChecked => "STATE_INTEGRITY_CHECKED"
  | .exportPrepared => "EXPORT_PREPARED"
  | .taskSelected => "TASK_SELECTED"
  | .promptGenerated => "PROMPT_GENERATED"
  | .roleExecuted => "ROLE_EXECUTED"
  | .roleToolRequested => "ROLE_TOOL_REQUESTED"
  | .roleObservationRecorded => "ROLE_OBSERVATION_RECORDED"
  | .toolEvidenceRecorded => "TOOL_EVIDENCE_RECORDED"
  | .approvalRequested => "APPROVAL_REQUESTED"
  | .approvalApproved => "APPROVAL_APPROVED"
  | .approvalRejected => "APPROVAL_REJECTED"
  | .approvalResumed => "APPROVAL_RESUMED"
  | .reviewApproved => "REVIEW_APPROVED"
  | .reviewRejected => "REVIEW_REJECTED"
  | .testPassed => "TEST_PASSED"
  | .testFailed => "TEST_FAILED"
  | .taskCompleted => "TASK_COMPLETED"
  | .taskBlocked => "TASK_BLOCKED"
  | .stateCommitted => "STATE_COMMITTED"

/-- The type with a text. -/
def DomainEventType.ofText : String → Option DomainEventType
  | "BOOTSTRAP_COMPLETED" => some .bootstrapCompleted
  | "DISCOVERY_COMPLETED" => some .discoveryCompleted
  | "ARCHITECTURE_ANALYZED" => some .architectureAnalyzed
  | "BACKLOG_PLANNED" => some .backlogPlanned
  | "TASK_SPLIT" => some .taskSplit
  | "RELEASE_ASSESSED" => some .releaseAssessed
  | "STATE_INTEGRITY_CHECKED" => some .stateIntegrityChecked
  | "EXPORT_PREPARED" => some .exportPrepared
  | "TASK_SELECTED" => some .taskSelected
  | "PROMPT_GENERATED" => some .promptGenerated
  | "ROLE_EXECUTED" => some .roleExecuted
  | "ROLE_TOOL_REQUESTED" => some .roleToolRequested
  | "ROLE_OBSERVATION_RECORDED" => some .roleObservationRecorded
  | "TOOL_EVIDENCE_RECORDED" => some .toolEvidenceRecorded
  | "APPROVAL_REQUESTED" => some .approvalRequested
  | "APPROVAL_APPROVED" => some .approvalApproved
  | "APPROVAL_REJECTED" => some .approvalRejected
  | "APPROVAL_RESUMED" => some .approvalResumed
  | "REVIEW_APPROVED" => some .reviewApproved
  | "REVIEW_REJECTED" => some .reviewRejected
  | "TEST_PASSED" => some .testPassed
  | "TEST_FAILED" => some .testFailed
  | "TASK_COMPLETED" => some .taskCompleted
  | "TASK_BLOCKED" => some .taskBlocked
  | "STATE_COMMITTED" => some .stateCommitted
  | _ => none

theorem DomainEventType.ofText_text (eventType : DomainEventType) :
    DomainEventType.ofText eventType.text = some eventType := by
  cases eventType <;> rfl

theorem DomainEventType.text_injective : Function.Injective DomainEventType.text := by
  intro eventType eventType' h
  have hsome : some eventType = some eventType' := by
    rw [← DomainEventType.ofText_text, ← DomainEventType.ofText_text, h]
  exact Option.some.inj hsome

/-- **`canonicalizeEvidencePayload`**. -/
def canonicalizeEvidencePayload (value : Json Decimal) : String :=
  Json.canonical Decimal.text Json.ownKeyLe (value.without "__proto__")

/-- **What the canonical text says** of a value: all but what stands under `__proto__`. -/
theorem canonicalizeEvidencePayload_eq_iff {value value' : Json Decimal} (h : value.Distinct) :
    canonicalizeEvidencePayload value = canonicalizeEvidencePayload value' ↔
      (value.without "__proto__").Same (value'.without "__proto__") :=
  Json.canonical_eq_iff Decimal.numberText_text Json.keyOrder_ownKeyLe h.without

/-- A text or `null`. -/
def nullable : Option String → Json Decimal
  | some s => .str s
  | none => .null

/-- The argument of `canonicalizeEvidencePayload` in `createChecksum`. -/
def checksumInput (event : StoredEvent) (index : Nat) (previousChecksum : Option String) :
    List (String × Json Decimal) :=
  [("index", .num (Decimal.ofNat index)), ("id", .str event.id), ("createdAt", .str event.createdAt),
    ("eventType", .str event.eventType.text), ("runId", nullable event.runId),
    ("previousChecksum", nullable previousChecksum), ("payload", .obj event.payload)]

/-- `createChecksum`. -/
def createChecksum (host : Host) (event : StoredEvent) (index : Nat)
    (previousChecksum : Option String) : String :=
  host.sha256Hex (canonicalizeEvidencePayload (.obj (checksumInput event index previousChecksum)))

structure ImmutableAuditRecord where
  index : Nat
  eventId : String
  createdAt : String
  checksum : String
  previousChecksum : Option String
  eventType : DomainEventType
  runId : Option String
  payload : List (String × Json Decimal)

/-- The record of an event behind a checksum. -/
def auditRecord (host : Host) (index : Nat) (previousChecksum : Option String) (event : StoredEvent) :
    ImmutableAuditRecord where
  index := index
  eventId := event.id
  createdAt := event.createdAt
  checksum := createChecksum host event index previousChecksum
  previousChecksum := previousChecksum
  eventType := event.eventType
  runId := event.runId
  payload := event.payload

/-- The records of events in their order, from an index on and behind a checksum. -/
def auditRecords (host : Host) : Nat → Option String → List StoredEvent → List ImmutableAuditRecord
  | _, _, [] => []
  | index, previousChecksum, event :: events =>
    auditRecord host index previousChecksum event ::
      auditRecords host (index + 1) (some (createChecksum host event index previousChecksum)) events

/-- The events in the order of their time stamps. -/
def chronological (host : Host) (events : List StoredEvent) : List StoredEvent :=
  events.insertionSort (OldestFirst host StoredEvent.createdAt)

/-- **`buildImmutableAuditLog`**. -/
def buildImmutableAuditLog (host : Host) (events : List StoredEvent) : List ImmutableAuditRecord :=
  auditRecords host 0 none (chronological host events)

/-! ### Records -/

/-- The checksum behind a list of events. -/
def checksumAfter (host : Host) : Nat → Option String → List StoredEvent → Option String
  | _, previousChecksum, [] => previousChecksum
  | index, previousChecksum, event :: events =>
    checksumAfter host (index + 1) (some (createChecksum host event index previousChecksum)) events

variable {host : Host}

theorem auditRecords_append (events events' : List StoredEvent) (index : Nat)
    (previousChecksum : Option String) :
    auditRecords host index previousChecksum (events ++ events') =
      auditRecords host index previousChecksum events ++
        auditRecords host (index + events.length) (checksumAfter host index previousChecksum events)
          events' := by
  induction events generalizing index previousChecksum with
  | nil => rfl
  | cons event events ih =>
    rw [List.cons_append, auditRecords, auditRecords, ih, checksumAfter, List.length_cons,
      Nat.add_right_comm, Nat.add_assoc]
    rfl

theorem checksumAfter_append (events events' : List StoredEvent) (index : Nat)
    (previousChecksum : Option String) :
    checksumAfter host index previousChecksum (events ++ events') =
      checksumAfter host (index + events.length) (checksumAfter host index previousChecksum events)
        events' := by
  induction events generalizing index previousChecksum with
  | nil => rfl
  | cons event events ih =>
    rw [List.cons_append, checksumAfter, ih, checksumAfter, List.length_cons, Nat.add_right_comm,
      Nat.add_assoc]

/-- The checksum behind all events is the one of the last record. -/
theorem getLast?_auditRecords (events : List StoredEvent) (index : Nat) :
    ((auditRecords host index none events).getLast?.map ImmutableAuditRecord.checksum) =
      checksumAfter host index none events := by
  rcases List.eq_nil_or_concat events with rfl | ⟨front, event, rfl⟩
  · rfl
  · rw [List.concat_eq_append, auditRecords_append, checksumAfter_append, auditRecords, auditRecords,
      List.getLast?_concat]
    rfl

/-! ### What a checksum covers -/

/-- **What a checksum covers** of an event: its id, time, type and run, and its payload but for what
stands under `__proto__`. -/
structure SameHashed (event event' : StoredEvent) : Prop where
  id : event.id = event'.id
  createdAt : event.createdAt = event'.createdAt
  eventType : event.eventType = event'.eventType
  runId : event.runId = event'.runId
  payload : Json.Same (Json.without "__proto__" (.obj event.payload))
    (Json.without "__proto__" (.obj event'.payload))

theorem without_checksumInput (event : StoredEvent) (index : Nat) (previousChecksum : Option String) :
    Json.withoutProps "__proto__" (checksumInput event index previousChecksum) =
      [("index", .num (Decimal.ofNat index)), ("id", .str event.id),
        ("createdAt", .str event.createdAt), ("eventType", .str event.eventType.text),
        ("runId", nullable event.runId), ("previousChecksum", nullable previousChecksum),
        ("payload", Json.without "__proto__" (.obj event.payload))] := by
  have hnullable : ∀ text, Json.without "__proto__" (nullable text) = nullable text := by
    intro text
    cases text <;> rfl
  simp [checksumInput, Json.withoutProps, Json.without, hnullable]

theorem nullable_of_same {text text' : Option String} (h : (nullable text).Same (nullable text')) :
    text = text' := by
  cases text with
  | none =>
    cases text' with
    | none => rfl
    | some s' => exact h.elim
  | some s =>
    cases text' with
    | none => exact h.elim
    | some s' => exact congrArg some h

theorem same_nullable (text : Option String) : (nullable text).Same (nullable text) := by
  cases text with
  | none => trivial
  | some s => rfl

theorem distinct_checksumInput (event : StoredEvent) (index : Nat) (previousChecksum : Option String) :
    Json.Distinct (.obj (checksumInput event index previousChecksum)) := by
  have hnullable : ∀ text, (nullable text).Distinct := by
    intro text
    cases text <;> trivial
  refine ⟨?_, trivial, trivial, trivial, trivial, hnullable _, hnullable _, event.distinct, trivial⟩
  show ["index", "id", "createdAt", "eventType", "runId", "previousChecksum", "payload"].Nodup
  decide

variable (hsha : Function.Injective host.sha256Hex)

include hsha in
/-- **The checksum determines** the index, the checksum before it and what is covered of the event. -/
theorem createChecksum_eq_iff {event event' : StoredEvent} {index index' : Nat}
    {previous previous' : Option String} :
    createChecksum host event index previous = createChecksum host event' index' previous' ↔
      index = index' ∧ previous = previous' ∧ SameHashed event event' := by
  rw [createChecksum, createChecksum, hsha.eq_iff,
    canonicalizeEvidencePayload_eq_iff (distinct_checksumInput event index previous), Json.without,
    Json.without, without_checksumInput, without_checksumInput]
  rw [Json.Same, Json.sameProps_cons_iff (by simp), Json.sameProps_cons_iff (by simp),
    Json.sameProps_cons_iff (by simp), Json.sameProps_cons_iff (by simp),
    Json.sameProps_cons_iff (by simp), Json.sameProps_cons_iff (by simp),
    Json.sameProps_cons_iff (by simp)]
  constructor
  · rintro ⟨hindex, hid, hcreatedAt, heventType, hrunId, hprevious, hpayload, -⟩
    exact ⟨Decimal.ofNat_injective hindex, nullable_of_same hprevious, hid, hcreatedAt,
      DomainEventType.text_injective heventType, nullable_of_same hrunId, hpayload⟩
  · rintro ⟨rfl, rfl, hcovered⟩
    refine ⟨rfl, hcovered.id, hcovered.createdAt, congrArg _ hcovered.eventType, ?_,
      same_nullable _, hcovered.payload, rfl⟩
    rw [hcovered.runId]
    exact same_nullable _

include hsha in
/-- **The last checksum of a list of events** covers each of them. -/
theorem checksumAfter_eq_iff {events events' : List StoredEvent} :
    checksumAfter host 0 none events = checksumAfter host 0 none events' ↔
      List.Forall₂ SameHashed events events' := by
  have hlast : ∀ (front : List StoredEvent) (event : StoredEvent),
      checksumAfter host 0 none (front ++ [event]) =
        some (createChecksum host event front.length (checksumAfter host 0 none front)) := by
    intro front event
    rw [checksumAfter_append, Nat.zero_add]
    rfl
  induction events using List.reverseRecOn generalizing events' with
  | nil =>
    rcases List.eq_nil_or_concat events' with rfl | ⟨front', event', rfl⟩
    · exact iff_of_true rfl List.Forall₂.nil
    · rw [List.concat_eq_append, hlast]
      refine iff_of_false (fun h => by cases h) fun h => ?_
      have hlength := h.length_eq
      simp at hlength
  | append_singleton front event ih =>
    rcases List.eq_nil_or_concat events' with rfl | ⟨front', event', rfl⟩
    · rw [hlast]
      refine iff_of_false (fun h => by cases h) fun h => ?_
      have hlength := h.length_eq
      simp at hlength
    · rw [List.concat_eq_append, hlast, hlast, Option.some_inj, createChecksum_eq_iff hsha]
      constructor
      · rintro ⟨-, hfront, hevent⟩
        exact List.rel_append (ih.mp hfront) (List.Forall₂.cons hevent List.Forall₂.nil)
      · intro h
        have hlength : front.length = front'.length := by
          have htotal := h.length_eq
          simpa using htotal
        have hfront := List.forall₂_take_append _ front' [event'] h
        have hevent := List.forall₂_drop_append _ front' [event'] h
        rw [List.take_left' hlength] at hfront
        rw [List.drop_left' hlength] at hevent
        exact ⟨hlength, ih.mpr hfront, (List.forall₂_cons.mp hevent).1⟩

end AiOrchestrator
