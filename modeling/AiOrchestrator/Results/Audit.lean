import AiOrchestrator.Results.Evidence
import AiOrchestrator.State.AuditLog

/-!
# What an audit log proves

An audit log is meant not to depend on the order in which its events come, to go on when later events
come, and to change its last checksum when anything of its events changes. The second holds always;
`auditLog_correct_iff` says when the others do.
-/

namespace AiOrchestrator

variable (host : Host)

/-- **Events that are the same** in every field, with payloads that are the same JSON value. -/
structure SameEvent (event event' : StoredEvent) : Prop where
  id : event.id = event'.id
  createdAt : event.createdAt = event'.createdAt
  eventType : event.eventType = event'.eventType
  runId : event.runId = event'.runId
  correlationId : event.correlationId = event'.correlationId
  payload : Json.Same (.obj event.payload) (.obj event'.payload)

/-- The log does not depend on the order of the events. -/
def OrderIndependent (events : List StoredEvent) : Prop :=
  ∀ events', events'.Perm events →
    buildImmutableAuditLog host events' = buildImmutableAuditLog host events

/-- Events that come later leave the records as they are. -/
def Extended (events : List StoredEvent) : Prop :=
  ∀ later : List StoredEvent,
    (∀ event ∈ events, ∀ event' ∈ later,
      host.localeCompare event.createdAt event'.createdAt = .lt) →
    buildImmutableAuditLog host events <+: buildImmutableAuditLog host (events ++ later)

/-- The last checksum of a log. -/
def lastChecksum (events : List StoredEvent) : Option String :=
  (buildImmutableAuditLog host events).getLast?.map ImmutableAuditRecord.checksum

/-- The last checksums of two lists of events differ if the events do. -/
def ChangesFound (events events' : List StoredEvent) : Prop :=
  ¬ List.Forall₂ SameEvent (chronological host events) (chronological host events') →
    lastChecksum host events ≠ lastChecksum host events'

/-- No two events are of one time. -/
def DistinctTimes (events : List StoredEvent) : Prop :=
  events.Pairwise fun event event' =>
    host.localeCompare event.createdAt event'.createdAt ≠ .eq

theorem map_eventId_auditRecords (events : List StoredEvent) (index : Nat)
    (previousChecksum : Option String) :
    (auditRecords host index previousChecksum events).map ImmutableAuditRecord.eventId =
      events.map StoredEvent.id := by
  induction events generalizing index previousChecksum with
  | nil => rfl
  | cons event events ih =>
    rw [auditRecords, List.map_cons, List.map_cons, ih]
    rfl

variable {host} [Std.TransCmp host.localeCompare]

theorem tied_iff {left right : StoredEvent} :
    host.localeCompare left.createdAt right.createdAt = .eq ↔
      OldestFirst host StoredEvent.createdAt left right ∧
        OldestFirst host StoredEvent.createdAt right left := by
  unfold OldestFirst
  rw [@Std.OrientedCmp.eq_swap _ host.localeCompare _ right.createdAt left.createdAt]
  cases host.localeCompare left.createdAt right.createdAt <;> decide

/-- Events of distinct times are in one chronological order. -/
theorem chronological_of_perm {events events' : List StoredEvent} (h : DistinctTimes host events)
    (hperm : events'.Perm events) : chronological host events' = chronological host events := by
  have hsorted : ∀ events : List StoredEvent,
      (chronological host events).Pairwise (OldestFirst host StoredEvent.createdAt) := fun _ =>
    List.pairwise_insertionSort _ _
  have hsame : (chronological host events').Perm (chronological host events) :=
    (List.perm_insertionSort _ _).trans (hperm.trans (List.perm_insertionSort _ _).symm)
  refine hsame.eq_of_pairwise ?_ (hsorted events') (hsorted events)
  intro left right hleft hright hle hge
  by_contra hne
  have hmem : left ∈ events := hperm.mem_iff.mp ((List.mem_insertionSort _).mp hleft)
  have hmem' : right ∈ events := (List.mem_insertionSort _).mp hright
  have hsymm : Std.Symm fun left right : StoredEvent =>
      host.localeCompare left.createdAt right.createdAt ≠ .eq :=
    ⟨fun _ _ hlt heq => hlt (tied_iff.mpr (tied_iff.mp heq).symm)⟩
  exact h.forall hmem hmem' hne (tied_iff.mpr ⟨hle, hge⟩)

/-- Two events of one time stay in their order. -/
theorem chronological_of_tied {left right : StoredEvent} (rest : List StoredEvent)
    (htied : host.localeCompare left.createdAt right.createdAt = .eq) :
    ∃ before after, chronological host (left :: right :: rest) = before ++ left :: right :: after ∧
      chronological host (right :: left :: rest) = before ++ right :: left :: after := by
  obtain ⟨hle, hge⟩ := tied_iff.mp htied
  have hsorted := List.pairwise_insertionSort (OldestFirst host StoredEvent.createdAt) rest
  obtain ⟨T, D, -, hsplit, hT, hD⟩ := Sorting.orderedInsert_split right hsorted
  have hT' : ∀ event ∈ T, ¬ OldestFirst host StoredEvent.createdAt left event := fun event hevent h =>
    hT event hevent (IsTrans.trans _ _ _ hge h)
  have hD' : ∀ event ∈ D, OldestFirst host StoredEvent.createdAt left event := fun event hevent =>
    IsTrans.trans _ _ _ hle (hD event hevent)
  refine ⟨T, D, ?_, ?_⟩
  · rw [chronological, List.insertionSort_cons, List.insertionSort_cons, hsplit,
      Sorting.orderedInsert_of_split hT hD, Sorting.orderedInsert_of_split hT']
    intro event hevent
    rcases List.mem_cons.mp hevent with rfl | hevent
    · exact hle
    · exact hD' event hevent
  · rw [chronological, List.insertionSort_cons, List.insertionSort_cons, hsplit,
      Sorting.orderedInsert_of_split hT' hD', Sorting.orderedInsert_of_split hT]
    intro event hevent
    rcases List.mem_cons.mp hevent with rfl | hevent
    · exact hge
    · exact hD event hevent

/-- **Order independence** needs distinct times. -/
theorem orderIndependent_iff {events : List StoredEvent}
    (hids : (events.map StoredEvent.id).Nodup) :
    OrderIndependent host events ↔ DistinctTimes host events := by
  constructor
  · intro h
    refine List.pairwise_iff_forall_sublist.mpr fun {left right} hsub htied => ?_
    obtain ⟨rest, hperm⟩ := hsub.exists_perm_append
    have hswapped : (right :: left :: rest).Perm events :=
      (List.Perm.swap left right rest).trans hperm.symm
    have hlogs := (h _ hperm.symm).trans (h _ hswapped).symm
    obtain ⟨before, after, hchron, hchron'⟩ := chronological_of_tied rest htied
    have hids' := congrArg (List.map ImmutableAuditRecord.eventId) hlogs
    rw [buildImmutableAuditLog, buildImmutableAuditLog, map_eventId_auditRecords,
      map_eventId_auditRecords] at hids'
    rw [List.cons_append, List.cons_append, List.nil_append, hchron, hchron', List.map_append,
      List.map_append] at hids'
    have hid : left.id = right.id := (List.cons.inj (List.append_cancel_left hids')).1
    have hdistinct := hids.sublist (hsub.map StoredEvent.id)
    exact (List.nodup_cons.mp hdistinct).1 (by simp [hid])
  · intro h events' hperm
    rw [buildImmutableAuditLog, buildImmutableAuditLog, chronological_of_perm h hperm]

omit [Std.TransCmp host.localeCompare] in
/-- **Later events** are appended. -/
theorem extended (events : List StoredEvent) : Extended host events := by
  intro later hlater
  have hchron : chronological host (events ++ later) =
      chronological host events ++ chronological host later := by
    refine Sorting.insertionSort_append fun event hevent event' hevent' hgt => ?_
    rw [hlater event hevent event' hevent'] at hgt
    cases hgt
  rw [buildImmutableAuditLog, buildImmutableAuditLog, hchron, auditRecords_append]
  exact List.prefix_append _ _

omit [Std.TransCmp host.localeCompare] in
/-- **Changes are found** unless they are in what no checksum covers. -/
theorem changesFound_iff (hsha : Function.Injective host.sha256Hex) {events events' : List StoredEvent} :
    ChangesFound host events events' ↔
      (List.Forall₂ SameHashed (chronological host events) (chronological host events') →
        List.Forall₂ SameEvent (chronological host events) (chronological host events')) := by
  have hlast : lastChecksum host events = lastChecksum host events' ↔
      List.Forall₂ SameHashed (chronological host events) (chronological host events') := by
    rw [lastChecksum, lastChecksum, buildImmutableAuditLog, buildImmutableAuditLog,
      getLast?_auditRecords, getLast?_auditRecords, checksumAfter_eq_iff hsha]
  rw [ChangesFound, ne_eq, hlast]
  exact not_imp_not

/-- **The audit log.** It does not depend on the order of events with distinct ids exactly if no two
of them are of one time; later events are always appended; and the last checksums of two different
lists of events differ exactly if the lists do not agree in all ids, times, types, runs and payloads
without `__proto__`. -/
theorem auditLog_correct_iff (hsha : Function.Injective host.sha256Hex) :
    (∀ events : List StoredEvent, (events.map StoredEvent.id).Nodup →
      (OrderIndependent host events ↔ DistinctTimes host events)) ∧
    (∀ events, Extended host events) ∧
    ∀ events events', ChangesFound host events events' ↔
      (List.Forall₂ SameHashed (chronological host events) (chronological host events') →
        List.Forall₂ SameEvent (chronological host events) (chronological host events')) :=
  ⟨fun _ hids => orderIndependent_iff hids, extended, fun _ _ => changesFound_iff hsha⟩

/-! ### Logs -/

/-- An event of the task `T-1`. -/
def taskEvent (id createdAt : String) (eventType : DomainEventType) : StoredEvent where
  id := id
  eventType := eventType
  createdAt := createdAt
  payload := [("taskId", .str "T-1")]
  runId := some "run-1"
  correlationId := some "run-1"
  distinct := ⟨by decide, trivial, trivial⟩

/-- The selection of a task. -/
def selectedEvent : StoredEvent := taskEvent "E-1" "2026-01-01T00:00:00.000Z" .taskSelected

/-- Its completion, a day later. -/
def completedEvent : StoredEvent := taskEvent "E-2" "2026-01-02T00:00:00.000Z" .taskCompleted

/-- The SHA-256 digests of the two. -/
def auditDigests : List (String × String) :=
  let selected := "39a7093b3ab5dee45cece1a0016a2d4f13bee5c99b1a14058ca78ef32dc03d5c"
  let completed := "e512b520bfeb2c15828d45ff71dc96dc03498dc8ac2ef8193aa96e64b7e8660b"
  [(canonicalizeEvidencePayload (.obj (checksumInput selectedEvent 0 none)), selected),
    (canonicalizeEvidencePayload (.obj (checksumInput completedEvent 1 (some selected))), completed)]

/-- A platform with these digests. -/
def auditHost : Host where
  sha256Hex := tableHash auditDigests
  localeCompare := compare
  stringify := fun _ => "null"
  tokenCost := fun _ _ => 0

instance : Std.TransCmp auditHost.localeCompare :=
  inferInstanceAs (Std.TransCmp (compare : String → String → Ordering))

theorem auditHost_injective : Function.Injective auditHost.sha256Hex := by
  refine tableHash_injective ?_ ?_
  · show ["39a7093b3ab5dee45cece1a0016a2d4f13bee5c99b1a14058ca78ef32dc03d5c",
      "e512b520bfeb2c15828d45ff71dc96dc03498dc8ac2ef8193aa96e64b7e8660b"].Nodup
    decide
  · intro row hrow
    rcases List.mem_cons.mp hrow with rfl | hrow
    · show "39a7093b3ab5dee45cece1a0016a2d4f13bee5c99b1a14058ca78ef32dc03d5c".toList.head? ≠ some '#'
      decide
    · rw [List.mem_singleton.mp hrow]
      show "e512b520bfeb2c15828d45ff71dc96dc03498dc8ac2ef8193aa96e64b7e8660b".toList.head? ≠ some '#'
      decide

/-- The log of a selection and a later completion: any order will do, and a missing event is
found. -/
theorem auditLog_correct_iff_selected :
    OrderIndependent auditHost [selectedEvent, completedEvent] ∧
      Extended auditHost [selectedEvent] ∧
      ChangesFound auditHost [selectedEvent, completedEvent] [selectedEvent] := by
  obtain ⟨horder, hextended, hchanges⟩ := auditLog_correct_iff auditHost_injective
  refine ⟨?_, hextended _, ?_⟩
  · have hids : ([selectedEvent, completedEvent].map StoredEvent.id).Nodup := by
      show ["E-1", "E-2"].Nodup
      decide
    refine (horder _ hids).mpr (List.pairwise_pair.mpr ?_)
    show compare "2026-01-01T00:00:00.000Z" "2026-01-02T00:00:00.000Z" ≠ .eq
    decide
  · refine (hchanges _ _).mpr fun h => ?_
    have hlength := h.length_eq
    rw [chronological, chronological, List.length_insertionSort, List.length_insertionSort] at hlength
    cases hlength

/-- The same selection, but correlated with nothing. -/
def uncorrelatedEvent : StoredEvent := { selectedEvent with correlationId := none }

/-- The same selection, with a payload that `JSON.parse` makes of a text with `__proto__`. -/
def prototypeEvent (value : String) : StoredEvent :=
  { selectedEvent with
    payload := [("__proto__", .str value)]
    distinct := ⟨List.nodup_singleton _, trivial, trivial⟩ }

/-- **What an audit log does not prove**: the order of two events of one time, a correlation id, and
what stands under `__proto__`. -/
theorem auditLog_not_found :
    ¬ OrderIndependent auditHost
        [selectedEvent, taskEvent "E-2" "2026-01-01T00:00:00.000Z" .promptGenerated] ∧
      ¬ ChangesFound auditHost [selectedEvent] [uncorrelatedEvent] ∧
      ¬ ChangesFound auditHost [prototypeEvent "T-1"] [prototypeEvent "T-2"] := by
  have hsame : ∀ {event event' : StoredEvent}, SameHashed event event' → ¬ SameEvent event event' →
      ¬ ChangesFound auditHost [event] [event'] := by
    intro event event' hhashed hdiffer h
    have hevents := (changesFound_iff auditHost_injective).mp h
      (List.Forall₂.cons hhashed List.Forall₂.nil)
    exact hdiffer (List.forall₂_cons.mp hevents).1
  refine ⟨?_, hsame ?_ ?_, hsame ?_ ?_⟩
  · have hids : ([selectedEvent, taskEvent "E-2" "2026-01-01T00:00:00.000Z" .promptGenerated].map
        StoredEvent.id).Nodup := by
      show ["E-1", "E-2"].Nodup
      decide
    rw [orderIndependent_iff hids, DistinctTimes, List.pairwise_pair]
    show ¬ compare "2026-01-01T00:00:00.000Z" "2026-01-01T00:00:00.000Z" ≠ .eq
    decide
  · exact ⟨rfl, rfl, rfl, rfl, _, _, List.Perm.refl _, rfl, rfl⟩
  · intro h
    cases h.correlationId
  · exact ⟨rfl, rfl, rfl, rfl, rfl⟩
  · intro h
    obtain ⟨value, rest, hperm, hvalue, -⟩ := h.payload
    have hmem := hperm.mem_iff.mpr List.mem_cons_self
    obtain ⟨-, rfl⟩ := Prod.mk.inj (List.mem_singleton.mp hmem)
    exact absurd (show "T-1" = "T-2" from hvalue) (by decide)

end AiOrchestrator
