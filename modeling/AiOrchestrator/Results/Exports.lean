import AiOrchestrator.Application.RunExports
import AiOrchestrator.Results.Scheduling

/-!
# Complete exports

Both exports of a run show its events among the newest fifty of all runs, in the order of time.
`exports_complete_iff` says when these are all events of the run, and when a later export goes on from
an earlier one: what counts is the place of an event in the listing (`Sorting.rank`), that is the number
of events that are newer, or of the same time and recorded earlier.
-/

namespace AiOrchestrator

variable (host : Host)

/-- An event of a run. -/
def StoredEvent.ofRun (runId : String) (event : StoredEvent) : Bool := event.runId = some runId

/-- What an audit record shows of an event. -/
def StoredEvent.shown (event : StoredEvent) :
    String × String × DomainEventType × Option String × List (String × Json Decimal) :=
  (event.id, event.createdAt, event.eventType, event.runId, event.payload)

/-- What a record shows of its event. -/
def ImmutableAuditRecord.shown (record : ImmutableAuditRecord) :
    String × String × DomainEventType × Option String × List (String × Json Decimal) :=
  (record.eventId, record.createdAt, record.eventType, record.runId, record.payload)

/-- The timeline of a run; a bundle that is `null` shows no event. -/
def timelineOf (history : List StoredEvent) (runId : String) : List TimelineEntry :=
  match getReviewBundle host history (some runId) with
  | some bundle => bundle.timeline
  | none => []

/-- **Complete timelines**: every event of the run once, in the order of time. -/
def TimelineComplete (history : List StoredEvent) (runId : String) : Prop :=
  (timelineOf host history runId).Perm ((history.filter (StoredEvent.ofRun runId)).map timelineEntry) ∧
    (timelineOf host history runId).Pairwise (OldestFirst host TimelineEntry.createdAt)

/-- **Complete audit exports**: every event of the run once, in the order of time. -/
def AuditComplete (history : List StoredEvent) (runId : String) : Prop :=
  (((getImmutableAuditExport host history (some runId)).filter fun record =>
      record.runId = some runId).map ImmutableAuditRecord.shown).Perm
    ((history.filter (StoredEvent.ofRun runId)).map StoredEvent.shown) ∧
    (getImmutableAuditExport host history (some runId)).Pairwise
      (OldestFirst host ImmutableAuditRecord.createdAt)

/-- The export of a longer history begins with the one of the history. -/
def AuditExtends (history more : List StoredEvent) (runId : String) : Prop :=
  getImmutableAuditExport host history (some runId) <+:
    getImmutableAuditExport host (history ++ more) (some runId)

/-- The number of events that are listed before one. -/
def place (before : List StoredEvent) (event : StoredEvent) (after : List StoredEvent) : Nat :=
  Sorting.rank (NewestFirst host StoredEvent.createdAt) before event after

/-- Every event of the run is on the first page. -/
def OnFirstPage (history : List StoredEvent) (runId : String) : Prop :=
  ∀ before event after, history = before ++ event :: after → event.runId = some runId →
    place host before event after < 50

/-- An event that an audit export of a run selects; the empty id selects all. -/
def Selected (runId : String) (event : StoredEvent) : Prop :=
  runId = "" ∨ event.runId = some runId

/-- What an export shows stays on the first page, and what it shows later on belongs behind it. -/
def PageGoesOn (history more : List StoredEvent) (runId : String) : Prop :=
  ∀ before event after, history = before ++ event :: after → Selected runId event →
    place host before event after < 50 →
      place host before event (after ++ more) < 50 ∧
      ∀ before' event' after', more = before' ++ event' :: after' → Selected runId event' →
        place host (history ++ before') event' after' < 50 →
          host.localeCompare event'.createdAt event.createdAt ≠ .lt

/-! ### Records -/

theorem map_shown_auditRecords (events : List StoredEvent) (index : Nat)
    (previousChecksum : Option String) :
    (auditRecords host index previousChecksum events).map ImmutableAuditRecord.shown =
      events.map StoredEvent.shown := by
  induction events generalizing index previousChecksum with
  | nil => rfl
  | cons event events ih =>
    rw [auditRecords, List.map_cons, List.map_cons, ih]
    rfl

theorem auditRecord_of_shown {event event' : StoredEvent} (h : event.shown = event'.shown) (index : Nat)
    (previousChecksum : Option String) :
    auditRecord host index previousChecksum event = auditRecord host index previousChecksum event' := by
  simp only [StoredEvent.shown, Prod.mk.injEq] at h
  simp only [auditRecord, createChecksum, checksumInput, h]

/-- Records go on from each other as the events do. -/
theorem auditRecords_prefix_iff {events events' : List StoredEvent} {index : Nat}
    {previousChecksum : Option String} :
    auditRecords host index previousChecksum events <+:
        auditRecords host index previousChecksum events' ↔
      events.map StoredEvent.shown <+: events'.map StoredEvent.shown := by
  constructor
  · intro h
    have hshown := h.map ImmutableAuditRecord.shown
    rwa [map_shown_auditRecords, map_shown_auditRecords] at hshown
  · intro h
    induction events generalizing events' index previousChecksum with
    | nil => exact List.nil_prefix
    | cons event events ih =>
      cases events' with
      | nil => simp at h
      | cons event' events' =>
        rw [List.map_cons, List.map_cons, List.cons_prefix_cons] at h
        have hrecord := auditRecord_of_shown host h.1 index previousChecksum
        have hchecksum := congrArg ImmutableAuditRecord.checksum hrecord
        have hrest : auditRecords host (index + 1)
            (some (createChecksum host event index previousChecksum)) events <+:
              auditRecords host (index + 1)
                (some (createChecksum host event index previousChecksum)) events' := ih h.2
        rw [auditRecords, auditRecords, hrecord, List.cons_prefix_cons]
        refine ⟨rfl, ?_⟩
        have hsame : createChecksum host event index previousChecksum =
            createChecksum host event' index previousChecksum := hchecksum
        rw [← hsame]
        exact hrest

variable [Std.TransCmp host.localeCompare]

/-! ### Pages -/

/-- A selection from the first page is the whole selection exactly if nothing of it is listed
behind the page. -/
theorem page_complete_iff {α : Type} (view : StoredEvent → α) (p : StoredEvent → Bool)
    (history : List StoredEvent) :
    ((((listEvents host history {}).filter p).map view).Perm ((history.filter p).map view)) ↔
      ∀ before event after, history = before ++ event :: after → p event = true →
        place host before event after < 50 := by
  have hsplit := List.take_append_drop 50
    (history.insertionSort (NewestFirst host StoredEvent.createdAt))
  have hperm := List.perm_insertionSort (NewestFirst host StoredEvent.createdAt) history
  have hcount : (history.filter p).length =
      ((listEvents host history {}).filter p).length +
        (((history.insertionSort (NewestFirst host StoredEvent.createdAt)).drop 50).filter p).length := by
    rw [← (hperm.filter p).length_eq, listEvents_default]
    conv_lhs => rw [← hsplit]
    rw [List.filter_append, List.length_append]
  have hbehind : ((history.insertionSort (NewestFirst host StoredEvent.createdAt)).drop 50).filter p =
      [] ↔ ∀ before event after, history = before ++ event :: after → p event = true →
        place host before event after < 50 := by
    rw [List.filter_eq_nil_iff]
    have hdrop := Sorting.exists_mem_drop_iff (r := NewestFirst host StoredEvent.createdAt)
      (p := fun event => p event = true) (n := 50) (l := history)
    constructor
    · intro h before event after hhistory hp
      by_contra hplace
      obtain ⟨event', hmem, hp'⟩ :=
        hdrop.mpr ⟨before, event, after, hhistory, hp, Nat.not_lt.mp hplace⟩
      exact h event' hmem hp'
    · intro h event hmem hp
      obtain ⟨before, event', after, hhistory, hp', hplace⟩ := hdrop.mp ⟨event, hmem, hp⟩
      exact absurd (h before event' after hhistory hp') (Nat.not_lt.mpr hplace)
  rw [← hbehind]
  constructor
  · intro h
    have hlength := h.length_eq
    rw [List.length_map, List.length_map, hcount] at hlength
    exact List.length_eq_zero_iff.mp (by omega)
  · intro h
    have hall : (history.insertionSort (NewestFirst host StoredEvent.createdAt)).filter p =
        (listEvents host history {}).filter p := by
      conv_lhs => rw [← hsplit]
      rw [List.filter_append, h, List.append_nil]
      rfl
    rw [← hall]
    exact (hperm.filter p).map view

omit [Std.TransCmp host.localeCompare] in
/-- The timeline of a run with a name. -/
theorem timelineOf_eq {history : List StoredEvent} {runId : String} (h : runId ≠ "") :
    timelineOf host history runId =
      (((listEvents host history {}).filter (StoredEvent.ofRun runId)).insertionSort
        (OldestFirst host StoredEvent.createdAt)).map timelineEntry := by
  unfold timelineOf getReviewBundle
  by_cases hempty : listEvents host history {} = []
  · simp [hempty]
  · have hrun : filterRun (some runId) (listEvents host history {}) =
        (listEvents host history {}).filter (StoredEvent.ofRun runId) := filterRun_some h _
    simp [hempty, h, hrun]

omit [Std.TransCmp host.localeCompare] in
theorem timelineOf_empty (history : List StoredEvent) : timelineOf host history "" = [] := by
  unfold timelineOf getReviewBundle
  by_cases hempty : listEvents host history {} = []
  · simp [hempty]
  · simp [hempty]

/-- **Timelines** are complete where all events of the run are on the first page. -/
theorem timelineComplete_iff {history : List StoredEvent} {runId : String} :
    TimelineComplete host history runId ↔
      OnFirstPage host history runId ∧
        (runId = "" → ∀ event ∈ history, event.runId ≠ some "") := by
  by_cases hrun : runId = ""
  · subst hrun
    rw [TimelineComplete, timelineOf_empty]
    constructor
    · rintro ⟨hperm, -⟩
      have hnone := List.map_eq_nil_iff.mp hperm.nil_eq.symm
      have hevents : ∀ event ∈ history, event.runId ≠ some "" := fun event hmem => by
        simpa [StoredEvent.ofRun] using List.filter_eq_nil_iff.mp hnone event hmem
      refine ⟨fun before event after hhistory heq => ?_, fun _ => hevents⟩
      exact absurd heq (hevents event (by rw [hhistory]; simp))
    · rintro ⟨-, hevents⟩
      have hnone : history.filter (StoredEvent.ofRun "") = [] := List.filter_eq_nil_iff.mpr
        fun event hmem => by simpa [StoredEvent.ofRun] using hevents rfl event hmem
      rw [hnone]
      exact ⟨List.Perm.refl _, List.Pairwise.nil⟩
  · have hpage := page_complete_iff host timelineEntry (StoredEvent.ofRun runId) history
    have hsort := List.perm_insertionSort (OldestFirst host StoredEvent.createdAt)
      ((listEvents host history {}).filter (StoredEvent.ofRun runId))
    have hplaces : OnFirstPage host history runId ↔
        ∀ before event after, history = before ++ event :: after →
          StoredEvent.ofRun runId event = true → place host before event after < 50 := by
      simp only [OnFirstPage, StoredEvent.ofRun, decide_eq_true_eq]
    rw [TimelineComplete, timelineOf_eq host hrun, hplaces, ← hpage]
    constructor
    · rintro ⟨hperm, -⟩
      exact ⟨(hsort.map timelineEntry).symm.trans hperm, fun heq => absurd heq hrun⟩
    · rintro ⟨hperm, -⟩
      refine ⟨(hsort.map timelineEntry).trans hperm, List.pairwise_map.mpr ?_⟩
      exact List.pairwise_insertionSort (OldestFirst host StoredEvent.createdAt) _

/-- The events of the run in what an export selects. -/
theorem filter_filterRun (runId : String) (events : List StoredEvent) :
    (filterRun (some runId) events).filter (StoredEvent.ofRun runId) =
      events.filter (StoredEvent.ofRun runId) := by
  by_cases hrun : runId = ""
  · rw [hrun, filterRun_empty]
  · rw [filterRun_some hrun, List.filter_filter]
    refine List.filter_congr fun event _ => ?_
    simp [StoredEvent.ofRun]

/-- **Audit exports** are complete where all events of the run are on the first page. -/
theorem auditComplete_iff {history : List StoredEvent} {runId : String} :
    AuditComplete host history runId ↔ OnFirstPage host history runId := by
  have hpage := page_complete_iff host StoredEvent.shown (StoredEvent.ofRun runId) history
  have hplaces : OnFirstPage host history runId ↔
      ∀ before event after, history = before ++ event :: after →
        StoredEvent.ofRun runId event = true → place host before event after < 50 := by
    simp only [OnFirstPage, StoredEvent.ofRun, decide_eq_true_eq]
  have hshown : ((getImmutableAuditExport host history (some runId)).filter fun record =>
      record.runId = some runId).map ImmutableAuditRecord.shown =
        ((chronological host (filterRun (some runId) (listEvents host history {}))).filter
          (StoredEvent.ofRun runId)).map StoredEvent.shown := by
    have hmap := congrArg (List.filter fun view => decide (view.2.2.2.1 = some runId))
      (map_shown_auditRecords host
        (chronological host (filterRun (some runId) (listEvents host history {}))) 0 none)
    rw [List.filter_map, List.filter_map] at hmap
    exact hmap
  have hsort : ((chronological host (filterRun (some runId) (listEvents host history {}))).filter
      (StoredEvent.ofRun runId)).Perm ((listEvents host history {}).filter (StoredEvent.ofRun runId)) := by
    rw [← filter_filterRun runId (listEvents host history {})]
    exact (List.perm_insertionSort _ _).filter _
  have hsorted : (getImmutableAuditExport host history (some runId)).Pairwise
      (OldestFirst host ImmutableAuditRecord.createdAt) := by
    have hevents : (chronological host (filterRun (some runId) (listEvents host history {}))).Pairwise
        (OldestFirst host StoredEvent.createdAt) := List.pairwise_insertionSort _ _
    have hmap := map_shown_auditRecords host
      (chronological host (filterRun (some runId) (listEvents host history {}))) 0 none
    have hshownSorted : ((chronological host (filterRun (some runId)
        (listEvents host history {}))).map StoredEvent.shown).Pairwise
          fun view view' => host.localeCompare view.2.1 view'.2.1 ≠ .gt := List.pairwise_map.mpr hevents
    rw [← hmap] at hshownSorted
    have hrecords := List.pairwise_map.mp hshownSorted
    exact hrecords
  rw [hplaces, ← hpage, AuditComplete, hshown]
  constructor
  · rintro ⟨hperm, -⟩
    exact (hsort.map StoredEvent.shown).symm.trans hperm
  · intro hperm
    exact ⟨(hsort.map StoredEvent.shown).trans hperm, hsorted⟩

/-! ### Pages of a history that goes on -/

section Tagged

variable {β : Type} (event : β → StoredEvent) (old selected : β → Bool)

/-- The first page of the listed elements. -/
def pageOf (entries : List β) : List β :=
  (entries.insertionSort (NewestFirst host fun entry => (event entry).createdAt)).take 50

/-- What an export takes from a page, in the order of time. -/
def exported (entries : List β) : List β :=
  ((pageOf host event entries).filter selected).insertionSort
    (OldestFirst host fun entry => (event entry).createdAt)

omit [Std.TransCmp host.localeCompare] in
/-- The number of exported elements of a kind is their number on the page. -/
theorem countP_exported (p : β → Bool) (entries : List β) :
    (exported host event selected entries).countP p =
      ((pageOf host event entries).filter selected).countP p :=
  (List.perm_insertionSort _ _).countP_eq p

variable {history more : List β} (hold : ∀ entry ∈ history, old entry = true)
  (hnew : ∀ entry ∈ more, old entry = false)

include hold hnew

theorem filter_old : (history ++ more).filter old = history := by
  rw [List.filter_append, List.filter_eq_self.mpr hold, List.filter_eq_nil_iff.mpr, List.append_nil]
  intro entry hmem
  rw [hnew entry hmem]
  decide

/-- The old elements of the later page are the first ones of the earlier page. -/
theorem old_prefix :
    (pageOf host event (history ++ more)).filter old <+: pageOf host event history := by
  have hsort := Sorting.filter_insertionSort
    (r := NewestFirst host fun entry => (event entry).createdAt) old (history ++ more)
  rw [filter_old old hold hnew] at hsort
  have htaken := (List.take_prefix 50 ((history ++ more).insertionSort
    (NewestFirst host fun entry => (event entry).createdAt))).filter old
  rw [hsort] at htaken
  refine List.prefix_take_iff.mpr ⟨htaken, ?_⟩
  exact (List.length_filter_le _ _).trans (List.length_take_le _ _)

/-- In the later listing a new element that is before an old one is newer. -/
theorem listing_stable :
    ((history ++ more).insertionSort (NewestFirst host fun entry => (event entry).createdAt)).Pairwise
      fun entry entry' => old entry = false → old entry' = true →
        ¬ OldestFirst host (fun entry => (event entry).createdAt) entry entry' := by
  have hlist : (history ++ more).Pairwise fun entry entry' =>
      ¬ (old entry = false ∧ old entry' = true) := by
    refine List.pairwise_append.mpr ⟨?_, ?_, ?_⟩
    · exact List.pairwise_of_forall_mem_list fun entry hmem entry' _ h => by
        rw [hold entry hmem] at h
        exact absurd h.1 (by decide)
    · exact List.pairwise_of_forall_mem_list fun entry _ entry' hmem h => by
        rw [hnew entry' hmem] at h
        exact absurd h.2 (by decide)
    · intro entry hmem entry' _ h
      rw [hold entry hmem] at h
      exact absurd h.1 (by decide)
  have hstable := Sorting.pairwise_insertionSort_stable
    (r := NewestFirst host fun entry => (event entry).createdAt) hlist
  exact hstable.imp fun h hentry hentry' hle => h hle ⟨hentry, hentry'⟩

/-- Where what an export shows stays on the page, it is what the later export shows of it. -/
theorem shown_of_stay (hnodup : history.Nodup)
    (hstay : ∀ entry ∈ pageOf host event history, selected entry = true →
      entry ∈ pageOf host event (history ++ more)) :
    (pageOf host event history).filter selected =
      ((pageOf host event (history ++ more)).filter selected).filter old := by
  obtain ⟨rest, hrest⟩ := old_prefix host event old hold hnew
  have hpageNodup : (pageOf host event history).Nodup :=
    ((List.perm_insertionSort _ _).nodup_iff.mpr hnodup).sublist (List.take_sublist _ _)
  have hnone : rest.filter selected = [] := by
    refine List.filter_eq_nil_iff.mpr fun entry hmem hentry => ?_
    have hpage : entry ∈ pageOf host event history := by
      rw [← hrest]
      exact List.mem_append_right _ hmem
    have hhistory : entry ∈ history :=
      (List.mem_insertionSort _).mp (List.mem_of_mem_take hpage)
    have hkept : entry ∈ (pageOf host event (history ++ more)).filter old :=
      List.mem_filter.mpr ⟨hstay entry hpage hentry, hold entry hhistory⟩
    rw [← hrest] at hpageNodup
    exact (List.nodup_append.mp hpageNodup).2.2 entry hkept entry hmem rfl
  conv_lhs => rw [← hrest]
  rw [List.filter_append, hnone, List.append_nil, List.filter_filter, List.filter_filter]
  refine List.filter_congr fun entry _ => ?_
  rw [Bool.and_comm]

/-- **An export goes on** where what it shows stays and what is shown later belongs behind it. -/
theorem exported_goesOn (hnodup : history.Nodup)
    (hstay : ∀ entry ∈ pageOf host event history, selected entry = true →
      entry ∈ pageOf host event (history ++ more))
    (hbehind : ∀ entry ∈ pageOf host event history, selected entry = true →
      ∀ entry' ∈ pageOf host event (history ++ more), selected entry' = true → old entry' = false →
        OldestFirst host (fun entry => (event entry).createdAt) entry entry') :
    exported host event selected history <+: exported host event selected (history ++ more) := by
  have hshown := shown_of_stay host event old selected hold hnew hnodup hstay
  have hsorted : ((pageOf host event (history ++ more)).filter selected).Pairwise fun entry entry' =>
      (old entry = true → old entry' = false →
        OldestFirst host (fun entry => (event entry).createdAt) entry entry') ∧
      (old entry = false → old entry' = true →
        ¬ OldestFirst host (fun entry => (event entry).createdAt) entry entry') := by
    have hstable := ((listing_stable host event old hold hnew).sublist
      (List.take_sublist 50 _)).sublist (List.filter_sublist (p := selected))
    refine List.Pairwise.imp_of_mem ?_ hstable
    intro entry entry' hmem hmem' h
    refine ⟨fun hentry hentry' => ?_, h⟩
    have hpage : entry ∈ (pageOf host event history).filter selected := by
      rw [hshown]
      exact List.mem_filter.mpr ⟨hmem, hentry⟩
    obtain ⟨hpage, hselected⟩ := List.mem_filter.mp hpage
    obtain ⟨hpage', hselected'⟩ := List.mem_filter.mp hmem'
    exact hbehind entry hpage hselected entry' hpage' hselected' hentry'
  rw [exported, exported, Sorting.insertionSort_eq_append hsorted, hshown]
  exact List.prefix_append _ _

/-- Where the times of an export go on, nothing that it shows has left the page. -/
theorem stay_of_times
    (h : (exported host event selected history).map (fun entry => (event entry).createdAt) <+:
      (exported host event selected (history ++ more)).map (fun entry => (event entry).createdAt))
    {entry : β} (hmem : entry ∈ pageOf host event history)
    (hentry : selected entry = true) : entry ∈ pageOf host event (history ++ more) := by
  by_contra hgone
  obtain ⟨rest, hrest⟩ := old_prefix host event old hold hnew
  have hhistory : entry ∈ history := (List.mem_insertionSort _).mp (List.mem_of_mem_take hmem)
  have hmemRest : entry ∈ rest := by
    rw [← hrest] at hmem
    rcases List.mem_append.mp hmem with hkept | hmem
    · exact absurd (List.mem_filter.mp hkept).1 hgone
    · exact hmem
  -- the entries up to the time of the one that has left the page
  let upTo : β → Bool := fun other =>
    OldestFirst host (fun entry => (event entry).createdAt) other entry
  have hcountOld : ((pageOf host event history).filter selected).countP upTo =
      (((pageOf host event (history ++ more)).filter old).filter selected).countP upTo +
        (rest.filter selected).countP upTo := by
    rw [← hrest, List.filter_append, List.countP_append]
  have hcountRest : 0 < (rest.filter selected).countP upTo := by
    refine List.countP_pos_iff.mpr ⟨entry, List.mem_filter.mpr ⟨hmemRest, hentry⟩, ?_⟩
    have hrefl : OldestFirst host (fun entry => (event entry).createdAt) entry entry :=
      (Std.Total.total entry entry).elim id id
    exact decide_eq_true hrefl
  have hnewer : ∀ other ∈ pageOf host event (history ++ more), old other = false →
      upTo other = false := by
    intro other hother hnewOther
    have hlisting := listing_stable host event old hold hnew
    rw [← List.take_append_drop 50 (List.insertionSort _ _)] at hlisting
    have hbehind : entry ∈ ((history ++ more).insertionSort
        (NewestFirst host fun entry => (event entry).createdAt)).drop 50 := by
      have hall : entry ∈ (history ++ more).insertionSort
          (NewestFirst host fun entry => (event entry).createdAt) :=
        (List.mem_insertionSort _).mpr (List.mem_append_left _ hhistory)
      rw [← List.take_append_drop 50 (List.insertionSort _ _)] at hall
      exact (List.mem_append.mp hall).resolve_left hgone
    have hbefore := (List.pairwise_append.mp hlisting).2.2 other hother entry hbehind hnewOther
      (hold entry hhistory)
    exact decide_eq_false hbefore
  have hcountNew : ((pageOf host event (history ++ more)).filter selected).countP upTo =
      (((pageOf host event (history ++ more)).filter old).filter selected).countP upTo := by
    rw [List.countP_filter, List.countP_filter, List.countP_filter]
    refine List.countP_congr fun other hother => ?_
    cases hkind : old other with
    | true => simp
    | false => simp [hnewer other hother hkind]
  have htimes : ∀ entries : List β, (exported host event selected entries).countP upTo =
      ((exported host event selected entries).map fun entry => (event entry).createdAt).countP
        fun time => host.localeCompare time (event entry).createdAt ≠ .gt := by
    intro entries
    rw [List.countP_map]
    rfl
  have hle := h.sublist.countP_le
    (p := fun time => decide (host.localeCompare time (event entry).createdAt ≠ .gt))
  rw [← htimes, ← htimes, countP_exported, countP_exported] at hle
  omega

/-- Where the times of an export go on, nothing that is shown later belongs before what it
shows. -/
theorem behind_of_times
    (h : (exported host event selected history).map (fun entry => (event entry).createdAt) <+:
      (exported host event selected (history ++ more)).map (fun entry => (event entry).createdAt))
    (hnodup : history.Nodup) {entry entry' : β} (hmem : entry ∈ pageOf host event history)
    (hentry : selected entry = true) (hmem' : entry' ∈ pageOf host event (history ++ more))
    (hentry' : selected entry' = true) (hkind : old entry' = false) :
    OldestFirst host (fun entry => (event entry).createdAt) entry entry' := by
  by_contra hbefore
  have hshown := shown_of_stay host event old selected hold hnew hnodup fun other hother hselected =>
    stay_of_times host event old selected hold hnew h hother hselected
  -- the entries before the time of the one that is shown earlier
  let earlier : String → Bool := fun time =>
    host.localeCompare (event entry).createdAt time = .gt
  have htimes : ∀ entries : List β,
      ((exported host event selected entries).map fun entry => (event entry).createdAt).countP earlier =
        ((pageOf host event entries).filter selected).countP fun other =>
          earlier (event other).createdAt := by
    intro entries
    rw [List.countP_map, countP_exported]
    rfl
  have hmore : ((pageOf host event history).filter selected).countP
        (fun other => earlier (event other).createdAt) <
      ((pageOf host event (history ++ more)).filter selected).countP
        (fun other => earlier (event other).createdAt) := by
    have hsum := List.countP_eq_countP_filter_add
      ((pageOf host event (history ++ more)).filter selected)
      (fun other => earlier (event other).createdAt) old
    have hfound : 0 < (((pageOf host event (history ++ more)).filter selected).filter
        fun other => !old other).countP (fun other => earlier (event other).createdAt) := by
      refine List.countP_pos_iff.mpr ⟨entry', ?_, ?_⟩
      · simp [hmem', hentry', hkind]
      · exact decide_eq_true (not_ne_iff.mp hbefore)
    rw [hshown]
    omega
  obtain ⟨rest, hrest⟩ := h
  have hcount : 0 < rest.countP earlier := by
    have hsum := congrArg (List.countP earlier) hrest
    rw [List.countP_append, htimes, htimes] at hsum
    omega
  obtain ⟨time, htime, hearlier⟩ := List.countP_pos_iff.mp hcount
  have hsorted : ((exported host event selected (history ++ more)).map
      fun entry => (event entry).createdAt).Pairwise fun time time' =>
        host.localeCompare time time' ≠ .gt := by
    have hexported : (exported host event selected (history ++ more)).Pairwise
        (OldestFirst host fun entry => (event entry).createdAt) := List.pairwise_insertionSort _ _
    exact List.pairwise_map.mpr hexported
  rw [← hrest] at hsorted
  have hshownTime : (event entry).createdAt ∈
      (exported host event selected history).map fun entry => (event entry).createdAt :=
    List.mem_map_of_mem ((List.mem_insertionSort _).mpr (List.mem_filter.mpr ⟨hmem, hentry⟩))
  have hafter := (List.pairwise_append.mp hsorted).2.2 _ hshownTime time htime
  exact hafter (of_decide_eq_true hearlier)

end Tagged

/-! ### Numbered events -/

/-- Whether an audit export of a run selects an event. -/
def selects (runId : String) (entry : StoredEvent × Nat) : Bool :=
  runId = "" || entry.1.runId = some runId

omit [Std.TransCmp host.localeCompare] in
theorem filterRun_eq (runId : String) (events : List StoredEvent) :
    filterRun (some runId) events =
      events.filter fun event => runId = "" || event.runId = some runId := by
  by_cases hrun : runId = ""
  · rw [hrun, filterRun_empty]
    exact (List.filter_eq_self.mpr fun _ _ => by simp).symm
  · rw [filterRun_some hrun]
    refine List.filter_congr fun event _ => ?_
    simp [hrun]

omit [Std.TransCmp host.localeCompare] in
/-- What an export shows is what it takes of the numbered events. -/
theorem exported_zipIdx (runId : String) (events : List StoredEvent) (k : Nat) :
    (exported host Prod.fst (selects runId) (events.zipIdx k)).map Prod.fst =
      chronological host (filterRun (some runId) (listEvents host events {})) := by
  have hsort := List.map_insertionSort
    (NewestFirst host fun entry : StoredEvent × Nat => entry.1.createdAt)
    (NewestFirst host StoredEvent.createdAt) Prod.fst (events.zipIdx k) fun _ _ _ _ => Iff.rfl
  have hsort' := List.map_insertionSort
    (OldestFirst host fun entry : StoredEvent × Nat => entry.1.createdAt)
    (OldestFirst host StoredEvent.createdAt) Prod.fst
    ((pageOf host Prod.fst (events.zipIdx k)).filter (selects runId)) fun _ _ _ _ => Iff.rfl
  rw [exported, hsort', chronological, filterRun_eq, listEvents_default]
  rw [List.zipIdx_map_fst] at hsort
  rw [← hsort, ← List.map_take, List.filter_map]
  rfl

omit [Std.TransCmp host.localeCompare] in
theorem auditExtends_iff {history more : List StoredEvent} {runId : String} :
    AuditExtends host history more runId ↔
      (exported host Prod.fst (selects runId) history.zipIdx).map (fun entry => entry.1.shown) <+:
        (exported host Prod.fst (selects runId) (history ++ more).zipIdx).map
          fun entry => entry.1.shown := by
  rw [AuditExtends, getImmutableAuditExport, getImmutableAuditExport, buildImmutableAuditLog,
    buildImmutableAuditLog, auditRecords_prefix_iff, ← exported_zipIdx host runId history 0,
    ← exported_zipIdx host runId (history ++ more) 0, List.map_map, List.map_map]
  rfl

omit [Std.TransCmp host.localeCompare] in
theorem nodup_zipIdx (events : List StoredEvent) (k : Nat) : (events.zipIdx k).Nodup := by
  refine List.Nodup.of_map Prod.snd ?_
  rw [List.zipIdx_map_snd]
  exact List.nodup_range'

/-- An event is on the page of its place. -/
theorem mem_pageOf_iff {before after : List (StoredEvent × Nat)} {entry : StoredEvent × Nat}
    (hnodup : (before ++ entry :: after).Nodup) :
    entry ∈ pageOf host Prod.fst (before ++ entry :: after) ↔
      place host (before.map Prod.fst) entry.1 (after.map Prod.fst) < 50 := by
  rw [pageOf, Sorting.mem_take_insertionSort_iff hnodup, place, Sorting.rank, Sorting.rank,
    List.countP_map, List.countP_map]
  rfl

/-- The place of an event that is on the page of the numbered events. -/
theorem place_of_mem_pageOf {events : List StoredEvent} {k : Nat} {entry : StoredEvent × Nat}
    (h : entry ∈ pageOf host Prod.fst (events.zipIdx k)) :
    ∃ before after, events.zipIdx k = before ++ entry :: after ∧
      events = before.map Prod.fst ++ entry.1 :: after.map Prod.fst ∧
      place host (before.map Prod.fst) entry.1 (after.map Prod.fst) < 50 := by
  have hmem : entry ∈ events.zipIdx k := (List.mem_insertionSort _).mp (List.mem_of_mem_take h)
  obtain ⟨before, after, hsplit⟩ := List.append_of_mem hmem
  have hnodup := nodup_zipIdx events k
  have hevents := congrArg (List.map Prod.fst) hsplit
  rw [List.zipIdx_map_fst, List.map_append, List.map_cons] at hevents
  rw [hsplit] at h hnodup
  exact ⟨before, after, hsplit, hevents, (mem_pageOf_iff host hnodup).mp h⟩

/-- **Audit exports go on** where the page does. -/
theorem auditExtends_iff_page {history more : List StoredEvent} {runId : String} :
    AuditExtends host history more runId ↔ PageGoesOn host history more runId := by
  have hsplit : (history ++ more).zipIdx = history.zipIdx ++ more.zipIdx history.length := by
    rw [List.zipIdx_append, Nat.zero_add]
  have hnodup : (history.zipIdx ++ more.zipIdx history.length).Nodup := by
    rw [← hsplit]
    exact nodup_zipIdx _ 0
  have hnodupHistory := hnodup.of_append_left
  let old : StoredEvent × Nat → Bool := fun entry => entry.2 < history.length
  have hold : ∀ entry ∈ history.zipIdx, old entry = true := by
    intro entry hmem
    have hbound := (List.mem_zipIdx hmem).2.1
    exact decide_eq_true (by omega)
  have hnew : ∀ entry ∈ more.zipIdx history.length, old entry = false := by
    intro entry hmem
    have hbound := (List.mem_zipIdx hmem).1
    exact decide_eq_false (by omega)
  have hselects : ∀ entry : StoredEvent × Nat, selects runId entry = true ↔ Selected runId entry.1 := by
    intro entry
    simp [selects, Selected]
  rw [auditExtends_iff, hsplit]
  constructor
  · intro h before event after hhistory hevent hplace
    have htimes := h.map fun view => view.2.1
    rw [List.map_map, List.map_map] at htimes
    have hnumbered : history.zipIdx = before.zipIdx ++ (event, before.length) ::
        after.zipIdx (before.length + 1) := by
      rw [hhistory, List.zipIdx_append, List.zipIdx_cons, Nat.zero_add]
    have hpage : (event, before.length) ∈ pageOf host Prod.fst history.zipIdx := by
      rw [hnumbered] at hnodup ⊢
      rw [mem_pageOf_iff host hnodup.of_append_left, List.zipIdx_map_fst, List.zipIdx_map_fst]
      exact hplace
    have hselected := (hselects (event, before.length)).mpr hevent
    refine ⟨?_, ?_⟩
    · have hstay := stay_of_times host Prod.fst old (selects runId) hold hnew htimes hpage hselected
      rw [hnumbered, List.append_assoc, List.cons_append] at hstay hnodup
      rw [mem_pageOf_iff host hnodup, List.map_append, List.zipIdx_map_fst, List.zipIdx_map_fst,
        List.zipIdx_map_fst] at hstay
      exact hstay
    · intro before' event' after' hmore hevent' hplace' hearlier
      have hnumbered' : more.zipIdx history.length = before'.zipIdx history.length ++
          (event', history.length + before'.length) ::
            after'.zipIdx (history.length + before'.length + 1) := by
        rw [hmore, List.zipIdx_append, List.zipIdx_cons]
      have hpage' : (event', history.length + before'.length) ∈
          pageOf host Prod.fst (history.zipIdx ++ more.zipIdx history.length) := by
        rw [hnumbered', ← List.append_assoc] at hnodup ⊢
        rw [mem_pageOf_iff host hnodup, List.map_append, List.zipIdx_map_fst, List.zipIdx_map_fst,
          List.zipIdx_map_fst]
        exact hplace'
      have hbehind := behind_of_times host Prod.fst old (selects runId) hold hnew htimes
        hnodupHistory hpage hselected hpage' ((hselects _).mpr hevent')
        (decide_eq_false (Nat.not_lt.mpr (Nat.le_add_right _ _)))
      refine hbehind ?_
      rw [@Std.OrientedCmp.eq_swap _ host.localeCompare _ event.createdAt, hearlier]
      rfl
  · intro h
    refine List.IsPrefix.map _ (exported_goesOn host Prod.fst old (selects runId) hold hnew
      hnodupHistory ?_ ?_)
    · intro entry hmem hentry
      obtain ⟨before, after, hnumbered, hhistory, hplace⟩ := place_of_mem_pageOf host hmem
      have hstay := (h _ _ _ hhistory ((hselects entry).mp hentry) hplace).1
      rw [hnumbered, List.append_assoc, List.cons_append] at hnodup ⊢
      rw [mem_pageOf_iff host hnodup, List.map_append, List.zipIdx_map_fst]
      exact hstay
    · intro entry hmem hentry entry' hmem' hentry' hkind
      obtain ⟨before, after, -, hhistory, hplace⟩ := place_of_mem_pageOf host hmem
      have hmore : entry' ∈ more.zipIdx history.length := by
        have hall := (List.mem_insertionSort _).mp (List.mem_of_mem_take hmem')
        refine (List.mem_append.mp hall).resolve_left fun hmem => ?_
        rw [hold entry' hmem] at hkind
        cases hkind
      obtain ⟨before', after', hnumbered'⟩ := List.append_of_mem hmore
      have hevents := congrArg (List.map Prod.fst) hnumbered'
      rw [List.zipIdx_map_fst, List.map_append, List.map_cons] at hevents
      rw [hnumbered', ← List.append_assoc] at hmem' hnodup
      rw [mem_pageOf_iff host hnodup, List.map_append, List.zipIdx_map_fst] at hmem'
      have hbehind := (h _ _ _ hhistory ((hselects entry).mp hentry) hplace).2 _ _ _ hevents
        ((hselects entry').mp hentry') hmem'
      intro hgt
      refine hbehind ?_
      rw [@Std.OrientedCmp.eq_swap _ host.localeCompare _ entry'.1.createdAt, hgt]
      rfl

/-- **Complete exports.** An audit export shows all events of the run exactly if fewer than fifty
events are listed before each of them; a timeline does in the same case, if the run has a name; and a
later audit export goes on from an earlier one exactly if what it shows of the run stays among the
first fifty, and what is shown later is of no earlier time. -/
theorem exports_complete_iff (history more : List StoredEvent) (runId : String) :
    (TimelineComplete host history runId ↔
      OnFirstPage host history runId ∧
        (runId = "" → ∀ event ∈ history, event.runId ≠ some "")) ∧
    (AuditComplete host history runId ↔ OnFirstPage host history runId) ∧
    (AuditExtends host history more runId ↔ PageGoesOn host history more runId) :=
  ⟨timelineComplete_iff host, auditComplete_iff host, auditExtends_iff_page host⟩

/-! ### Histories -/

omit [Std.TransCmp host.localeCompare] in
/-- All other events may be listed before one. -/
theorem place_le (before : List StoredEvent) (event : StoredEvent) (after : List StoredEvent) :
    place host before event after ≤ before.length + after.length :=
  Nat.add_le_add List.countP_le_length List.countP_le_length

omit [Std.TransCmp host.localeCompare] in
/-- A history of at most fifty events is on the first page. -/
theorem onFirstPage_of_short {history : List StoredEvent} (h : history.length ≤ 50)
    (runId : String) : OnFirstPage host history runId := by
  intro before event after hhistory _
  have hplace := place_le host before event after
  rw [hhistory, List.length_append, List.length_cons] at h
  omega

omit [Std.TransCmp host.localeCompare] in
/-- Events of later times keep a short history on the page. -/
theorem pageGoesOn_of_short {history more : List StoredEvent} {runId : String}
    (h : history.length + more.length ≤ 50)
    (hlater : ∀ event ∈ history, ∀ event' ∈ more,
      host.localeCompare event'.createdAt event.createdAt ≠ .lt) :
    PageGoesOn host history more runId := by
  intro before event after hhistory _ _
  have hevent : event ∈ history := by
    rw [hhistory]
    exact List.mem_append_right _ List.mem_cons_self
  constructor
  · have hplace := place_le host before event (after ++ more)
    rw [hhistory, List.length_append, List.length_cons] at h
    rw [List.length_append] at hplace
    omega
  · intro before' event' after' hmore _ _
    refine hlater event hevent event' ?_
    rw [hmore]
    exact List.mem_append_right _ List.mem_cons_self

theorem distinct_empty : (Json.obj ([] : List (String × Json Decimal))).Distinct :=
  ⟨List.nodup_nil, trivial⟩

/-- An event of a run. -/
def runEvent (runId createdAt : String) : StoredEvent where
  id := "E-" ++ createdAt
  eventType := .taskSelected
  createdAt := createdAt
  payload := []
  runId := some runId
  correlationId := some runId
  distinct := distinct_empty

/-- Two runs that take turns, the first one recorded late. -/
def twoRuns : List StoredEvent :=
  [runEvent "run-2" "2026-01-02T00:00:00.000Z", runEvent "run-1" "2026-01-03T00:00:00.000Z",
    runEvent "run-1" "2026-01-01T00:00:00.000Z", runEvent "run-2" "2026-01-04T00:00:00.000Z"]

/-- Later events of both. -/
def laterEvents : List StoredEvent :=
  [runEvent "run-2" "2026-01-05T00:00:00.000Z", runEvent "run-1" "2026-01-06T00:00:00.000Z"]

/-- Of two runs that take turns the events of one are exported, in the order of time, and a later
export goes on with its next event. -/
theorem exports_complete_iff_short :
    TimelineComplete codePointHost twoRuns "run-1" ∧ AuditComplete codePointHost twoRuns "run-1" ∧
      AuditExtends codePointHost twoRuns laterEvents "run-1" ∧
      (timelineOf codePointHost twoRuns "run-1").map TimelineEntry.createdAt =
        ["2026-01-01T00:00:00.000Z", "2026-01-03T00:00:00.000Z"] ∧
      (getImmutableAuditExport codePointHost (twoRuns ++ laterEvents) (some "run-1")).map
          ImmutableAuditRecord.createdAt =
        ["2026-01-01T00:00:00.000Z", "2026-01-03T00:00:00.000Z", "2026-01-06T00:00:00.000Z"] := by
  obtain ⟨htimeline, haudit, hextends⟩ :=
    exports_complete_iff codePointHost twoRuns laterEvents "run-1"
  have hpage : OnFirstPage codePointHost twoRuns "run-1" :=
    onFirstPage_of_short codePointHost (by decide) "run-1"
  have hgoesOn : PageGoesOn codePointHost twoRuns laterEvents "run-1" :=
    pageGoesOn_of_short codePointHost (by decide) (by decide +kernel)
  exact ⟨htimeline.mpr ⟨hpage, fun h => absurd h (by decide)⟩, haudit.mpr hpage,
    hextends.mpr hgoesOn, by decide +kernel, by decide +kernel⟩

/-- **A run that is not exported**: fifty events of another run are newer than its only event. Before
they came, it was. -/
theorem run_not_exported :
    ¬ TimelineComplete codePointHost (runEvent "run-1" "2026-01-01T00:00:00.000Z" ::
        List.replicate 50 (runEvent "run-2" "2026-01-02T00:00:00.000Z")) "run-1" ∧
      ¬ AuditComplete codePointHost (runEvent "run-1" "2026-01-01T00:00:00.000Z" ::
        List.replicate 50 (runEvent "run-2" "2026-01-02T00:00:00.000Z")) "run-1" ∧
      ¬ AuditExtends codePointHost [runEvent "run-1" "2026-01-01T00:00:00.000Z"]
        (List.replicate 50 (runEvent "run-2" "2026-01-02T00:00:00.000Z")) "run-1" := by
  have hplace : place codePointHost [] (runEvent "run-1" "2026-01-01T00:00:00.000Z")
      (List.replicate 50 (runEvent "run-2" "2026-01-02T00:00:00.000Z")) = 50 := by
    rw [place, Sorting.rank, List.countP_replicate]
    decide
  have hhidden : ¬ OnFirstPage codePointHost (runEvent "run-1" "2026-01-01T00:00:00.000Z" ::
      List.replicate 50 (runEvent "run-2" "2026-01-02T00:00:00.000Z")) "run-1" := by
    intro h
    have hlisted := h [] _ _ rfl rfl
    omega
  refine ⟨fun h => hhidden ((timelineComplete_iff codePointHost).mp h).1,
    fun h => hhidden ((auditComplete_iff codePointHost).mp h), fun h => ?_⟩
  have hgone := ((auditExtends_iff_page codePointHost).mp h [] _ [] rfl (Or.inr rfl)
    (lt_of_le_of_lt (place_le codePointHost _ _ _) (by decide))).1
  rw [List.nil_append] at hgone
  omega

end AiOrchestrator
