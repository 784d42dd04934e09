import AiOrchestrator.Execution.SideEffects
import AiOrchestrator.Execution.Writes

/-!
# Reservations

The git lifecycle reserves a key in the dedup registry of the run's copy before it calls an
executor. A reservation is written ahead when the stored state has it before the executor works, so
that the side effect is not executed again by a run that loads that state (`WrittenAhead`).

No operation between a reservation and its executor stores the copy: the registry that is stored
when an executor is called is still the one that the run loaded (`Loaded`, `Reserving`), and there
the key was free, or else the side effect would have been suppressed (`Due`).
-/

namespace AiOrchestrator

/-- The dedup registry of a state. -/
abbrev ProjectState.registry (state : ProjectState) : Record DedupRegistryRecord :=
  state.execution.dedupRegistry

/-! ### Reservations in the record -/

/-- A reservation that a run made. -/
structure Reservation where
  key : String
  leaseOwner : String
  nowIso : String
  ttlMs : Int

/-- The reservation that an event made. -/
def reservationOf : RunEvent → Option Reservation
  | ⟨.update (.reserve key leaseOwner nowIso ttlMs), _, _⟩ => some ⟨key, leaseOwner, nowIso, ttlMs⟩
  | _ => none

/-- The last reservation of a record. -/
def lastReservation (record : List RunEvent) : Option Reservation :=
  record.findSome? reservationOf

/-- **A reservation in a registry**: there is an entry for its key, by which the side effect is
suppressed until the time to live is over. -/
structure Reservation.In (r : Reservation) (registry : Record DedupRegistryRecord) : Prop where
  entry : ∃ entry, registry.get? r.key = some entry
  suppresses : ∀ laterIso now later, Text.dateParse r.nowIso = some now →
    Text.dateParse laterIso = some later → now ≤ later → later < now + r.ttlMs →
      ∃ entry, reserveDedupEntry Text.dateParse registry r.key r.leaseOwner laterIso r.ttlMs =
        .ok (registry, some entry)

/-- Every executor of a record was called behind a reservation that the stored state has. -/
def Secured (stored : ProjectState) (record : List RunEvent) : Prop :=
  ∀ later e earlier, record = later ++ e :: earlier → e.op.IsExecutor →
    ∃ r, lastReservation earlier = some r ∧ r.In stored.registry

/-- **Written ahead**: at every point of a run at which it may crash, the stored state has the
reservations of the executors that were called so far. -/
def WrittenAhead (record : List RunEvent) : Prop :=
  ∀ later e earlier, record = later ++ e :: earlier → Secured e.before.store.current (e :: earlier)

/-! ### Free keys -/

theorem enterReservation_congr (registry registry' : Record DedupRegistryRecord)
    (key leaseOwner nowIso : String) (expires : ℚ) :
    (enterReservation registry key leaseOwner nowIso expires).map Prod.snd =
      (enterReservation registry' key leaseOwner nowIso expires).map Prod.snd := by
  unfold enterReservation
  cases Text.isoString? expires <;> rfl

/-- Whether a key is suppressed depends on its own entry only. -/
theorem reserveDedupEntry_congr {registry registry' : Record DedupRegistryRecord} {key : String}
    (h : registry.get? key = registry'.get? key) (leaseOwner nowIso : String) (ttlMs : ℚ) :
    (reserveDedupEntry Text.dateParse registry key leaseOwner nowIso ttlMs).map Prod.snd =
      (reserveDedupEntry Text.dateParse registry' key leaseOwner nowIso ttlMs).map Prod.snd := by
  have hfresh := enterReservation_congr registry registry' key leaseOwner nowIso
  unfold reserveDedupEntry
  rw [h]
  cases Text.dateParse nowIso with
  | none =>
    cases registry'.get? key with
    | none => rfl
    | some current =>
      dsimp only
      split <;> rfl
  | some now =>
    cases registry'.get? key with
    | none => exact hfresh _
    | some current =>
      dsimp only
      split
      · exact hfresh _
      · split
        · rfl
        · exact hfresh _

/-- A reservation that suppresses nothing was made at a time that is a date. -/
theorem dateParse_of_reserved {registry registry' : Record DedupRegistryRecord}
    {key leaseOwner nowIso : String} {ttlMs : ℚ}
    (h : reserveDedupEntry Text.dateParse registry key leaseOwner nowIso ttlMs = .ok (registry', none)) :
    ∃ now, Text.dateParse nowIso = some now := by
  rcases reserveDedupEntry_ok h with ⟨current, -, hsuppressed, -⟩ | ⟨now, -, hnow, -⟩
  · cases hsuppressed
  · exact ⟨now, hnow⟩

/-- A key that was free when it was reserved is not suppressed by a registry with the same entry. -/
theorem Reservation.not_in {r : Reservation} {registry reserved stored : Record DedupRegistryRecord}
    (h : reserveDedupEntry Text.dateParse registry r.key r.leaseOwner r.nowIso r.ttlMs = .ok (reserved, none))
    (hstored : registry.get? r.key = stored.get? r.key) (httl : 0 < r.ttlMs) : ¬ r.In stored := by
  intro hin
  obtain ⟨now, hnow⟩ := dateParse_of_reserved h
  obtain ⟨entry, hentry⟩ := hin.suppresses r.nowIso now now hnow hnow (le_refl now) (by omega)
  have heq := reserveDedupEntry_congr hstored r.leaseOwner r.nowIso r.ttlMs
  rw [h, hentry] at heq
  cases heq

/-! ### What operations do to the registries -/

section Registries

variable {host : Host} {w : World}

/-- A write leaves the stored registry, or puts the copy's in its place when it saves. -/
theorem registry_of_apply {id createdAt : String} {state state' : ProjectState}
    {store store' : Store} {call : StoreCall} {result : call.Result}
    (h : call.apply host id createdAt state store = .ok (result, state', store')) :
    store'.current.registry = store.current.registry ∨
      (∃ events, call = .save events) ∧ store'.current.registry = state.registry := by
  cases call with
  | recordEvent event =>
    cases h
    exact Or.inl rfl
  | save events =>
    obtain ⟨next, hcommit, hnext⟩ := Except.bind_ok_iff.mp h
    obtain ⟨-, -, rfl⟩ := InMemoryStateStore.commitSnapshot_ok_iff.mp hcommit
    cases hnext
    exact Or.inr ⟨⟨events, rfl⟩, rfl⟩
  | recordFailure input =>
    obtain ⟨⟨next, failure, retryCount⟩, hrecord, hnext⟩ := Except.bind_ok_iff.mp h
    obtain ⟨-, -, -, hcommit⟩ := InMemoryStateStore.recordFailure_ok_iff.mp hrecord
    obtain ⟨-, -, rfl⟩ := InMemoryStateStore.commitSnapshot_ok_iff.mp hcommit
    cases hnext
    exact Or.inl rfl
  | recordArtifact artifact =>
    obtain ⟨next, hrecord, hnext⟩ := Except.bind_ok_iff.mp h
    obtain ⟨-, hcommit⟩ := InMemoryStateStore.recordArtifact_ok_iff.mp hrecord
    obtain ⟨-, -, rfl⟩ := InMemoryStateStore.commitSnapshot_ok_iff.mp hcommit
    cases hnext
    refine Or.inl ?_
    show (InMemoryStateStore.addArtifact store.current artifact).registry = store.current.registry
    unfold InMemoryStateStore.addArtifact
    split <;> rfl
  | recordPolicyDecision decision =>
    obtain ⟨next, hcommit, hnext⟩ := Except.bind_ok_iff.mp h
    obtain ⟨-, -, rfl⟩ := InMemoryStateStore.commitSnapshot_ok_iff.mp hcommit
    cases hnext
    exact Or.inl rfl
  | recordRunStep entry =>
    obtain ⟨next, hrecord, hnext⟩ := Except.bind_ok_iff.mp h
    obtain ⟨rfl, -⟩ := InMemoryStateStore.recordRunStep_ok hrecord
    cases hnext
    exact Or.inl rfl

/-- The stored registry after an operation. -/
theorem storedRegistry_of_handle (answer : Answer) (o : Op) :
    (Op.handle host answer o w).2.store.current.registry = w.store.current.registry ∨
      (∃ events, o = .write (.save events)) ∧
        (Op.handle host answer o w).2.store.current.registry = w.state.registry := by
  have hfallible : ∀ {α : Type} {r : Except RuntimeError α × World},
      r.2.store.current.registry = w.store.current.registry →
      (answer.fallible w r).2.store.current.registry = w.store.current.registry := by
    intro α r hr
    unfold Answer.fallible
    split
    · rfl
    · exact hr
  cases o with
  | write call =>
    simp only [Op.handle, Answer.fallible]
    split
    · exact Or.inl rfl
    · split
      · next happly =>
        rcases registry_of_apply happly with hkept | ⟨⟨events, rfl⟩, hsaved⟩
        · exact Or.inl hkept
        · exact Or.inr ⟨⟨events, rfl⟩, hsaved⟩
      · exact Or.inl rfl
  | executeRole name req context | executeRoleStep name req context observations =>
    refine Or.inl ?_
    simp only [Op.handle, Answer.fallible, World.markExecuted]
    split <;> split <;> rfl
  | now | dateNow | randomUUID | aborted | readState | selectionState | readShared | readCost
  | update _ | updateShared _ | flush => exact Or.inl rfl
  | _ => exact Or.inl (hfallible rfl)

/-- An update that does not work on the registry leaves it. -/
theorem registry_of_update {u : Update} (hu : ¬ u.Registers) (state : ProjectState) :
    (u.apply state).registry = state.registry := by
  cases u with
  | reserve key leaseOwner nowIso ttlMs => exact absurd trivial hu
  | finalize key nowIso status policyDecisionId => exact absurd trivial hu
  | resumeFailure failureId now =>
    simp only [Update.apply]
    split
    · next state' failure happly =>
      unfold ProjectState.resumeFailure at happly
      split at happly
      · cases happly
      · split_ifs at happly
        dsimp only at happly
        split at happly
        · cases happly
          rfl
        · split_ifs at happly <;> cases happly <;> rfl
    · rfl
  | replayFailure failureId now =>
    simp only [Update.apply]
    split
    · next state' failure happly =>
      unfold ProjectState.replayFromFailureCheckpoint at happly
      split at happly
      · cases happly
      · split_ifs at happly <;> cases happly <;> rfl
    · rfl
  | _ => rfl

/-- The copy's registry after an operation that does not work on it: its own or, after a load, the
stored one. -/
theorem registry_of_handle (answer : Answer) {o : Op} (ho : o.ordinary) :
    (Op.handle host answer o w).2.state.registry = w.state.registry ∨
      o = .load ∧ (Op.handle host answer o w).2.state.registry = w.store.current.registry := by
  by_cases hload : o = .load
  · subst hload
    cases hfault : answer.fault with
    | some error =>
      refine Or.inl ?_
      simp only [Op.handle, Answer.fallible, hfault]
    | none =>
      refine Or.inr ⟨rfl, ?_⟩
      simp only [Op.handle, Answer.fallible, hfault]
  by_cases hflush : o = .flush
  · subst hflush
    obtain ⟨steps, revision, heq⟩ := flushToState_copy w.shared w.state
    refine Or.inl ?_
    show (flushToState w.shared w.state).1.registry = w.state.registry
    rw [heq]
    rfl
  by_cases hupdate : ∃ u, o = .update u
  · obtain ⟨u, rfl⟩ := hupdate
    exact Or.inl (registry_of_update ho w.state)
  · obtain ⟨revision, heq⟩ := copy_of_handle host answer w hload hflush
      fun u hu => hupdate ⟨u, hu⟩
    refine Or.inl ?_
    rw [heq]
    rfl

end Registries

/-! ### Rules -/

/-- **The effect of an operation under the lease**: whatever other clients store meanwhile, they
leave the stored dedup registry as it is. -/
def Op.leasedEffect (host : Host) : Prog.Eff Op Op.Ans World := fun o w x w' =>
  ∃ answer store, store.current.registry = w.store.current.registry ∧
    Op.handle host answer o { w with store := store } = (x, w')

/-- The last reservation of a record is not in a registry. -/
def Due (stored : Record DedupRegistryRecord) (record : List RunEvent) : Prop :=
  ∃ r, lastReservation record = some r ∧ ¬ r.In stored

/-- The rules of a run whose executors are called behind reservations that are not stored. -/
def dueRules (host : Host) : Prog.Rules Op Op.Ans Observed where
  allowed o c := o.IsExecutor → Due c.1.store.current.registry c.2
  effect := Prog.recorded (Op.leasedEffect host)

theorem Op.ordinary.not_isExecutor {o : Op} (h : o.ordinary) : ¬ o.IsExecutor := by
  cases o with
  | git command => exact h
  | _ => exact id

/-- An ordinary operation makes no reservation. -/
theorem lastReservation_cons {o : Op} (h : o.ordinary) (x : o.Ans) (w : World)
    (record : List RunEvent) :
    lastReservation (⟨o, x, w⟩ :: record) = lastReservation record := by
  cases o with
  | update u =>
    cases u with
    | reserve key leaseOwner nowIso ttlMs => exact absurd trivial h
    | _ => rfl
  | _ => rfl

section Phases

variable {host : Host} {R : Record DedupRegistryRecord} {α : Type}

/-- **Before the lifecycle**: the copy and the store have the registry of the load. -/
structure Loaded (R : Record DedupRegistryRecord) (c : Observed) : Prop where
  copy : c.1.state.registry = R
  stored : c.1.store.current.registry = R

theorem stable_loaded : Stable (dueRules host) Op.ordinary (Loaded R) := by
  intro o c ho hc
  refine ⟨fun hexecutor => absurd hexecutor ho.not_isExecutor, fun x c' he => ?_⟩
  obtain ⟨⟨answer, store, hstore, heq⟩, -⟩ := he
  have hw : (Op.handle host answer o { c.1 with store := store }).2 = c'.1 := congrArg Prod.snd heq
  have hstored : store.current.registry = R := hstore.trans hc.stored
  constructor
  · rw [← hw]
    rcases @registry_of_handle host { c.1 with store := store } answer o ho with
      hkept | ⟨-, hloaded⟩
    · exact hkept.trans hc.copy
    · exact hloaded.trans hstored
  · rw [← hw]
    rcases @storedRegistry_of_handle host { c.1 with store := store } answer o with
      hkept | ⟨-, hsaved⟩
    · exact hkept.trans hstored
    · exact hsaved.trans hc.copy

/-- The key is one of a stage of the lifecycle. -/
def KeyOf (host : Host) (stage key : String) : Prop :=
  ∃ state runId taskId normalizedInput,
    sideEffectKey host state runId taskId stage normalizedInput = .ok key

/-- **In the lifecycle**: the store still has the registry of the load, and the copy differs from it
at keys of these stages only. -/
structure Reserving (host : Host) (R : Record DedupRegistryRecord) (stages : List String)
    (c : Observed) : Prop where
  stored : c.1.store.current.registry = R
  copy : ∀ key, c.1.state.registry.get? key = R.get? key ∨ ∃ stage ∈ stages, KeyOf host stage key

theorem Loaded.reserving {c : Observed} (h : Loaded R c) : Reserving host R [] c where
  stored := h.stored
  copy key := Or.inl (by rw [h.copy])

/-- What the lifecycle does between two reservations. -/
inductive LifecycleOp (host : Host) (stages : List String) : Op → Prop
  | ordinary {o : Op} (h : o.ordinary) (hkind : o.kind.plain) : LifecycleOp host stages o
  | executor {command : GitCommand} (h : command.IsExecutor) : LifecycleOp host stages (.git command)
  | finalize {key stage : String} (hstage : stage ∈ stages) (hkey : KeyOf host stage key)
      (nowIso : String) (status : DedupStatus) (policyDecisionId : Option String) :
      LifecycleOp host stages (.update (.finalize key nowIso status policyDecisionId))

/-- What is done in the lifecycle neither stores nor loads the copy. -/
theorem LifecycleOp.plain {stages : List String} {o : Op} (h : LifecycleOp host stages o) :
    o.kind.plain := by
  cases h with
  | ordinary h hkind => exact hkind
  | executor h => trivial
  | finalize hstage hkey nowIso status policyDecisionId => trivial

theorem LifecycleOp.lastReservation {stages : List String} {o : Op}
    (h : LifecycleOp host stages o) (x : o.Ans) (w : World) (record : List RunEvent) :
    lastReservation (⟨o, x, w⟩ :: record) = lastReservation record := by
  cases h with
  | ordinary h hkind => exact lastReservation_cons h x w record
  | executor h => rfl
  | finalize hstage hkey nowIso status policyDecisionId => rfl

theorem Reserving.effect {stages : List String} {o : Op} (ho : LifecycleOp host stages o)
    {c c' : Observed} {x : o.Ans} (hc : Reserving host R stages c)
    (he : (dueRules host).effect o c x c') : Reserving host R stages c' := by
  obtain ⟨⟨answer, store, hstore, heq⟩, -⟩ := he
  have hw : (Op.handle host answer o { c.1 with store := store }).2 = c'.1 := congrArg Prod.snd heq
  have hstored : store.current.registry = R := hstore.trans hc.stored
  constructor
  · rw [← hw]
    rcases @storedRegistry_of_handle host { c.1 with store := store } answer o with
      hkept | ⟨⟨events, rfl⟩, -⟩
    · exact hkept.trans hstored
    · exact absurd ho.plain id
  · intro key
    rw [← hw]
    cases ho with
    | ordinary h hkind =>
      rcases @registry_of_handle host { c.1 with store := store } answer o h with
        hkept | ⟨rfl, -⟩
      · rw [hkept]
        exact hc.copy key
      · exact absurd hkind id
    | executor h =>
      obtain ⟨revision, hcopy⟩ := copy_of_handle host answer { c.1 with store := store }
        (o := .git _) (by simp) (by simp) (by simp)
      rw [hcopy]
      exact hc.copy key
    | @finalize reserved stage hstage hkey nowIso status policyDecisionId =>
      by_cases hsame : key = reserved
      · exact Or.inr ⟨stage, hstage, hsame ▸ hkey⟩
      · have hget : (finalizeDedupEntry c.1.state.registry reserved nowIso status
            policyDecisionId).get? key = c.1.state.registry.get? key :=
          Dict.get?_modify_of_ne hsame _ _
        show (finalizeDedupEntry c.1.state.registry reserved nowIso status
            policyDecisionId).get? key = R.get? key ∨ _
        rw [hget]
        exact hc.copy key

/-- The phase after an operation of the lifecycle that brings an executor closer. -/
abbrev AtExecutor (host : Host) (R : Record DedupRegistryRecord) (stages : List String)
    (c : Observed) : Prop :=
  Reserving host R stages c ∧ Due R c.2

theorem stable_atExecutor {stages : List String} :
    Stable (dueRules host) (LifecycleOp host stages) (AtExecutor host R stages) := by
  intro o c ho hc
  refine ⟨fun _ => ?_, fun x c' he => ⟨hc.1.effect ho he, ?_⟩⟩
  · rw [hc.1.stored]
    exact hc.2
  · obtain ⟨r, hr, hnot⟩ := hc.2
    refine ⟨r, ?_, hnot⟩
    rw [he.2, ho.lastReservation]
    exact hr

/-- Ordinary operations of the lifecycle. -/
theorem stable_reserving {stages : List String} :
    Stable (dueRules host) (fun o => o.ordinary ∧ o.kind.plain) (Reserving host R stages) := by
  intro o c ho hc
  refine ⟨fun hexecutor => absurd hexecutor ho.1.not_isExecutor, fun x c' he => ?_⟩
  exact hc.effect (.ordinary ho.1 ho.2) he

theorem stable_any : Stable (dueRules host) Op.ordinary (fun _ => True) := fun _ _ ho _ =>
  ⟨fun hexecutor => absurd hexecutor ho.not_isExecutor, fun _ _ _ => trivial⟩

/-! ### Programs of a phase -/

theorem loaded_spec {m : Action α} (hm : Ordinary m) :
    Act.Triple (dueRules host) (Loaded R) m (fun _ => Loaded R) (fun _ _ => True) :=
  (stable_loaded.keeps hm).imp (fun _ h => h) (fun _ _ h => h) fun _ _ _ => trivial

theorem any_spec {m : Action α} (hm : Ordinary m) :
    Act.Triple (dueRules host) (fun _ => True) m (fun _ _ => True) (fun _ _ => True) :=
  stable_any.keeps hm

theorem reserving_spec {stages : List String} {m : Action α} (hm : Ordinary m)
    (hplain : Does OpKind.plain m) :
    Act.Triple (dueRules host) (Reserving host R stages) m (fun _ => Reserving host R stages)
      (fun _ _ => True) :=
  (stable_reserving.keeps (hm.and hplain)).imp (fun _ h => h) (fun _ _ h => h)
    fun _ _ _ => trivial

theorem atExecutor_spec {stages : List String} {m : Action α}
    (hm : Act.Uses (LifecycleOp host stages) m) :
    Act.Triple (dueRules host) (AtExecutor host R stages) m (fun _ => AtExecutor host R stages)
      (fun _ _ => True) :=
  (stable_atExecutor.keeps hm).imp (fun _ h => h) (fun _ _ h => h) fun _ _ _ => trivial

/-- A reservation leaves the entries of other keys. -/
theorem get?_of_reserve {registry reserved : Record DedupRegistryRecord} {key leaseOwner : String}
    {nowIso : String} {ttlMs : ℚ} {suppressedBy : Option DedupRegistryRecord}
    (h : reserveDedupEntry Text.dateParse registry key leaseOwner nowIso ttlMs = .ok (reserved, suppressedBy))
    {other : String} (hother : other ≠ key) : reserved.get? other = registry.get? other := by
  rcases reserveDedupEntry_ok h with ⟨current, -, -, rfl⟩ | ⟨now, expiresAt, -, -, -, -, rfl⟩
  · rfl
  · exact Dict.get?_set_of_ne hother registry _

/-- The copy that is read is the copy. -/
theorem readState_reserving {stages : List String} :
    Act.Triple (dueRules host) (Reserving host R stages) (request .readState)
      (fun state c => Reserving host R stages c ∧ c.1.state = state) (fun _ _ => True) := by
  have hop : LifecycleOp host stages .readState := .ordinary trivial trivial
  refine triple_request (fun c hc hexecutor => absurd hexecutor id) fun c x c' hc he => ?_
  have hc' : Reserving host R stages c' := hc.effect hop he
  obtain ⟨⟨answer, store, -, heq⟩, -⟩ := he
  obtain ⟨rfl, hw⟩ := Prod.mk.inj heq
  exact ⟨hc', by rw [← hw]⟩

theorem dedupTtlMs_pos : 0 < dedupTtlMs := by decide

/-- **A reservation**: if it suppresses nothing, its executor is due. -/
theorem reserveSideEffect_spec {stages : List String} {stage key : String}
    (hkey : KeyOf host stage key) (hfresh : ∀ other ∈ stages, ¬ KeyOf host other key)
    (leaseOwner nowIso : String) :
    Act.Triple (dueRules host) (Reserving host R stages) (reserveSideEffect key leaseOwner nowIso)
      (fun suppressed c => Reserving host R (stage :: stages) c ∧
        (suppressed = false → Due R c.2))
      (fun _ _ => True) := by
  refine Act.Triple.bind readState_reserving fun state => ?_
  refine Act.Triple.bind ((Act.Triple.ofExcept _).imp (fun _ h => h) (fun _ _ h => h)
    fun _ _ _ => trivial) ?_
  rintro ⟨reserved, suppressedBy⟩
  refine Act.Triple.bind (Q := fun _ c => Reserving host R (stage :: stages) c ∧
    (suppressedBy.isSome = false → Due R c.2)) ?_ fun _ => Act.Triple.pure fun _ h => h
  refine triple_request (fun _ _ hexecutor => absurd hexecutor id) ?_
  rintro c x c' ⟨⟨hc, hstate⟩, hreserve⟩ ⟨⟨answer, store, hstore, heq⟩, hrecord⟩
  obtain ⟨rfl, hw⟩ := Prod.mk.inj heq
  refine ⟨⟨?_, fun other => ?_⟩, fun hnone => ?_⟩
  · rw [← hw]
    exact hstore.trans hc.stored
  · -- only the entry of the reserved key may be another one
    rw [← hw]
    show ((Update.reserve key leaseOwner nowIso dedupTtlMs).apply c.1.state).registry.get? other =
      R.get? other ∨ _
    rw [hstate]
    have hregistry : ((Update.reserve key leaseOwner nowIso dedupTtlMs).apply state).registry =
        reserved := by
      simp only [Update.apply, hreserve]
    rw [hregistry]
    by_cases hsame : other = key
    · exact Or.inr ⟨stage, List.mem_cons_self, hsame ▸ hkey⟩
    · rw [get?_of_reserve hreserve hsame, ← hstate]
      rcases hc.copy other with hkept | ⟨before, hmem, hbefore⟩
      · exact Or.inl hkept
      · exact Or.inr ⟨before, List.mem_cons_of_mem _ hmem, hbefore⟩
  · obtain rfl : suppressedBy = none := Option.isNone_iff_eq_none.mp (by simpa using hnone)
    refine ⟨⟨key, leaseOwner, nowIso, dedupTtlMs⟩, ?_, ?_⟩
    · rw [hrecord]
      rfl
    · refine Reservation.not_in hreserve ?_ dedupTtlMs_pos
      rcases hc.copy key with hkept | ⟨before, hmem, hbefore⟩
      · rw [← hstate]
        exact hkept
      · exact absurd hbefore (hfresh before hmem)

/-! ### The lifecycle -/

/-- The keys of two stages differ. -/
theorem KeyOf.stage {stage stage' key : String} (h : KeyOf host stage key)
    (h' : KeyOf host stage' key) : Text.trim stage = Text.trim stage' := by
  obtain ⟨state, runId, taskId, normalizedInput, hkey⟩ := h
  obtain ⟨state', runId', taskId', normalizedInput', hkey'⟩ := h'
  unfold sideEffectKey at hkey hkey'
  have heq := stage_of_key hkey hkey'
  exact heq

theorem keyOf_of_ok {state : ProjectState} {runId taskId stage normalizedInput key : String}
    (h : sideEffectKey host state runId taskId stage normalizedInput = .ok key) :
    KeyOf host stage key :=
  ⟨state, runId, taskId, normalizedInput, h⟩

/-- Making the key of a stage. -/
theorem sideEffectKey_spec {P : Observed → Prop} (state : ProjectState)
    (runId taskId stage normalizedInput : String) :
    Act.Triple (dueRules host) P
      (Act.ofExcept (sideEffectKey host state runId taskId stage normalizedInput))
      (fun key c => P c ∧ KeyOf host stage key) (fun _ _ => True) :=
  (Act.Triple.ofExcept _).imp (fun _ h => h) (fun _ _ h => ⟨h.1, keyOf_of_ok h.2⟩)
    fun _ _ _ => trivial

theorem uses_executor {stages : List String} {command : GitCommand} (h : command.IsExecutor) :
    Act.Uses (LifecycleOp host stages) (tryGit command) :=
  Act.uses_catching (Act.uses_bind (uses_request (.executor h)) fun _ => Act.uses_pure _) fun _ =>
    Act.uses_pure _

theorem uses_ordinary {stages : List String} {m : Action α} (hm : Ordinary m)
    (hplain : Does OpKind.plain m) : Act.Uses (LifecycleOp host stages) m :=
  (hm.and hplain).mono fun _ h => .ordinary h.1 h.2

theorem uses_completeSideEffect {stages : List String} {stage key : String}
    (hstage : stage ∈ stages) (hkey : KeyOf host stage key) (succeeded : Bool) :
    Act.Uses (LifecycleOp host stages) (completeSideEffect key succeeded) :=
  Act.uses_bind (uses_request (.ordinary trivial trivial)) fun _ =>
    Act.uses_bind (uses_request (.ordinary trivial trivial)) fun _ =>
      uses_request (.finalize hstage hkey _ _ _)

theorem uses_persistAndRequire {stages : List String} (input : PersistPolicyDecisionInput) :
    Act.Uses (LifecycleOp host stages) (PolicyDecisionRecorder.persistAndRequire input) :=
  uses_ordinary (ordinary_persistAndRequire input)
    (does_persistAndRequire trivial trivial trivial input)

/-- A side effect that is suppressed or carried out, behind its reservation. -/
theorem once_spec {stages : List String} {stage key : String} (hkey : KeyOf host stage key)
    (hfresh : ∀ other ∈ stages, ¬ KeyOf host other key) (leaseOwner nowIso : String) (skipped : α)
    {m : Action α} (hm : Act.Uses (LifecycleOp host (stage :: stages)) m) :
    Act.Triple (dueRules host) (Reserving host R stages)
      (do
        if ← reserveSideEffect key leaseOwner nowIso then pure skipped
        else m)
      (fun _ => Reserving host R (stage :: stages)) (fun _ _ => True) := by
  refine Act.Triple.bind (reserveSideEffect_spec hkey hfresh leaseOwner nowIso)
    fun suppressed => ?_
  cases suppressed with
  | true => exact Act.Triple.pure fun _ h => h.1
  | false =>
    exact Act.Triple.imp (P := AtExecutor host R (stage :: stages)) (atExecutor_spec hm)
      (fun _ h => ⟨h.1, h.2 rfl⟩) (fun _ _ h => h.1) fun _ _ h => h

/-- A key of a stage is none of other stages. -/
theorem fresh_of_ne {stages : List String} {stage key : String} (hkey : KeyOf host stage key)
    (hne : ∀ other ∈ stages, Text.trim other ≠ Text.trim stage) :
    ∀ other ∈ stages, ¬ KeyOf host other key :=
  fun other hother h => hne other hother (h.stage hkey)

theorem now_spec {stages : List String} :
    Act.Triple (dueRules host) (Reserving host R stages) (request .now)
      (fun _ => Reserving host R stages) (fun _ _ => True) :=
  reserving_spec (ordinary_request (o := .now) trivial) (does_request trivial)

variable {rt : Runtime} (input : GitLifecycleInput)

/-- **The push.** -/
theorem pushOnce_spec (branchName commitSha : String) :
    Act.Triple (dueRules rt.host) (Reserving rt.host R ["git_commit"])
      (rt.pushOnce input branchName commitSha)
      (fun _ => Reserving rt.host R ["git_push", "git_commit"]) (fun _ _ => True) := by
  refine Act.Triple.bind readState_reserving fun state => ?_
  refine Act.Triple.bind ((sideEffectKey_spec _ _ _ _ _).imp (fun _ h => h.1) (fun _ _ h => h)
    fun _ _ h => h) fun key => Act.Triple.pull fun hkey => ?_
  refine Act.Triple.bind now_spec fun nowIso => ?_
  refine once_spec hkey (fresh_of_ne hkey (by decide)) _ _ _ ?_
  refine Act.uses_bind (uses_persistAndRequire _) fun _ => ?_
  refine Act.uses_bind (uses_request (.ordinary trivial trivial)) fun _ => ?_
  refine Act.uses_bind (Act.uses_bind (uses_executor trivial) fun _ => Act.uses_pure _)
    fun isPushed => ?_
  exact Act.uses_bind (uses_completeSideEffect List.mem_cons_self hkey _) fun _ => Act.uses_pure _

/-- **The draft pull request.** -/
theorem createPrOnce_spec (branchName commitSha : String) :
    Act.Triple (dueRules rt.host) (Reserving rt.host R ["git_push", "git_commit"])
      (rt.createPrOnce input branchName commitSha)
      (fun _ => Reserving rt.host R ["pr_draft", "git_push", "git_commit"])
      (fun _ _ => True) := by
  refine Act.Triple.bind readState_reserving fun state => ?_
  refine Act.Triple.bind ((sideEffectKey_spec _ _ _ _ _).imp (fun _ h => h.1) (fun _ _ h => h)
    fun _ _ h => h) fun key => Act.Triple.pull fun hkey => ?_
  refine Act.Triple.bind now_spec fun nowIso => ?_
  refine once_spec hkey (fresh_of_ne hkey (by decide)) _ _ _ ?_
  refine Act.uses_bind (uses_persistAndRequire _) fun _ => ?_
  refine Act.uses_bind (uses_request (.ordinary trivial trivial)) fun _ => ?_
  refine Act.uses_bind (Act.uses_bind (uses_executor trivial) fun _ => Act.uses_pure _)
    fun isPrCreated => ?_
  exact Act.uses_bind (uses_completeSideEffect List.mem_cons_self hkey _) fun _ => Act.uses_pure _

/-- More stages may have reserved. -/
theorem Reserving.mono {stages stages' : List String} {c : Observed}
    (h : Reserving host R stages c) (hsub : stages ⊆ stages') : Reserving host R stages' c where
  stored := h.stored
  copy key := (h.copy key).imp id fun ⟨stage, hmem, hkey⟩ => ⟨stage, hsub hmem, hkey⟩

/-- Nothing is done. -/
theorem skip_spec {stages stages' : List String} (hsub : stages ⊆ stages') (a : α) :
    Act.Triple (dueRules host) (Reserving host R stages) (pure a : Action α)
      (fun _ => Reserving host R stages') (fun _ _ => True) :=
  Act.Triple.pure fun _ h => h.mono hsub

/-- The gates and the push of a commit. -/
theorem pushCommit_spec (branchName commitSha : String) :
    Act.Triple (dueRules rt.host) (Reserving rt.host R ["git_commit"])
      (rt.pushCommit input branchName commitSha)
      (fun _ => Reserving rt.host R ["git_push", "git_commit"]) (fun _ _ => True) := by
  have hgates : ∀ actions, Act.Triple (dueRules rt.host) (Reserving rt.host R ["git_commit"])
      (rt.evaluateRiskGates input branchName commitSha actions)
      (fun _ => Reserving rt.host R ["git_commit"]) (fun _ _ => True) := fun actions =>
    reserving_spec (ordinary_evaluateRiskGates rt input _ _ _)
      (does_evaluateRiskGates rt input trivial trivial trivial _ _ _)
  refine Act.Triple.bind (Q := fun _ => Reserving rt.host R ["git_commit"]) ?_ fun waiting => ?_
  · split
    · refine Act.Triple.bind (reserving_spec (ordinary_detectRiskyActionsFromCommit rt _ _)
        (does_detectRiskyActionsFromCommit trivial rt _ _)) fun actions => hgates _
    · exact Act.Triple.pure fun _ h => h
  · refine Act.Triple.bind (reserving_spec (ordinary_evaluatePushGate rt input _ _)
      (does_evaluatePushGate rt input trivial trivial trivial _ _)) fun status => ?_
    cases status with
    | rejected | pending | approved => exact skip_spec (List.subset_cons_self _ _) _
    | resumed | completed =>
      exact Act.Triple.bind (pushOnce_spec input branchName commitSha) fun _ =>
        Act.Triple.pure fun _ h => h

/-- **The commit**, and what follows it. -/
theorem commitAndPush_spec (branchName : String) :
    Act.Triple (dueRules rt.host) (Reserving rt.host R []) (rt.commitAndPush input branchName)
      (fun _ => Reserving rt.host R ["git_push", "git_commit"]) (fun _ _ => True) := by
  have hcommitted : ∀ {c}, Reserving rt.host R ["git_commit"] c →
      Reserving rt.host R ["git_push", "git_commit"] c := fun h =>
    h.mono (List.subset_cons_self _ _)
  refine Act.Triple.bind now_spec fun nowIso => ?_
  refine Act.Triple.bind readState_reserving fun state => ?_
  refine Act.Triple.bind ((sideEffectKey_spec _ _ _ _ _).imp (fun _ h => h.1) (fun _ _ h => h)
    fun _ _ h => h) fun key => Act.Triple.pull fun hkey => ?_
  refine Act.Triple.bind (reserveSideEffect_spec hkey (fun _ h => absurd h List.not_mem_nil) _ _)
    fun suppressed => ?_
  cases suppressed with
  | true => exact Act.Triple.pure fun _ h => hcommitted h.1
  | false =>
    refine Act.Triple.imp (P := AtExecutor rt.host R ["git_commit"]) ?_ (fun _ h => ⟨h.1, h.2 rfl⟩)
      (fun _ _ h => h) fun _ _ h => h
    refine Act.Triple.bind (atExecutor_spec (uses_persistAndRequire _)) fun _ => ?_
    refine Act.Triple.bind (atExecutor_spec (uses_request (o := .requireValid)
      (.ordinary trivial trivial))) fun _ => ?_
    refine Act.Triple.bind (atExecutor_spec ?_) fun committed => ?_
    · refine Act.uses_catching ?_ fun _ => Act.uses_pure _
      refine Act.uses_bind (uses_request (.executor trivial)) fun _ => ?_
      refine Act.uses_bind (uses_request (.executor trivial)) fun _ => ?_
      exact Act.uses_bind (uses_request (.ordinary id trivial)) fun _ => Act.uses_pure _
    refine Act.Triple.bind (atExecutor_spec (uses_completeSideEffect List.mem_cons_self hkey _))
      fun _ => ?_
    cases committed with
    | none => exact Act.Triple.pure fun _ h => hcommitted h.1
    | some commitSha =>
      refine Act.Triple.bind ((pushCommit_spec input branchName commitSha).imp (fun _ h => h.1)
        (fun _ _ h => h) fun _ _ h => h) fun _ => Act.Triple.pure fun _ h => h

theorem recordNew_spec {stages : List String} (type : ArtifactType) (title : String)
    (metadata : List (String × String)) :
    Act.Triple (dueRules host) (Reserving host R stages) (Runtime.recordNew type title metadata)
      (fun _ => Reserving host R stages) (fun _ _ => True) :=
  reserving_spec (ordinary_recordNew type title metadata)
    (does_recordNew trivial trivial trivial type title metadata)

/-- **The lifecycle** calls its executors behind reservations that are not stored. -/
theorem completeGitLifecycle_spec :
    Act.Triple (dueRules rt.host) (Loaded R) (rt.completeGitLifecycle input) (fun _ _ => True)
      (fun _ _ => True) := by
  refine Act.Triple.imp (P := Reserving rt.host R []) ?_ (fun _ h => h.reserving) (fun _ _ h => h)
    fun _ _ h => h
  refine Act.Triple.bind (reserving_spec (ordinary_lifecycleBranch input)
    (does_lifecycleBranch trivial input)) fun branchName => ?_
  refine Act.Triple.bind (reserving_spec (ordinary_workspaceHasGitChanges _)
    (does_workspaceHasGitChanges trivial _)) fun hasChanges => ?_
  refine Act.Triple.bind (Q := fun _ => Reserving rt.host R ["git_push", "git_commit"]) ?_
    fun outcome => ?_
  · split
    · exact commitAndPush_spec input branchName
    · exact skip_spec (List.nil_subset _) _
  refine Act.Triple.bind (recordNew_spec _ _ _) fun _ => ?_
  refine Act.Triple.bind (Q := fun _ => Reserving rt.host R
    ["pr_draft", "git_push", "git_commit"]) ?_ fun drafted => ?_
  · split
    · refine Act.Triple.bind (Q := fun _ => Reserving rt.host R ["git_push", "git_commit"]) ?_
        fun gate => ?_
      · split
        · exact reserving_spec (ordinary_evaluateApprovalGate _ _ _ _ _)
            (does_evaluateApprovalGate trivial trivial trivial _ _ _ _ _)
        · exact Act.Triple.pure fun _ h => h
      cases gate with
      | rejected | pending | approved => exact skip_spec (List.subset_cons_self _ _) _
      | resumed | completed =>
        exact Act.Triple.bind (createPrOnce_spec input branchName _) fun _ =>
          Act.Triple.pure fun _ h => h
    · exact skip_spec (List.subset_cons_self _ _) _
  refine Act.Triple.bind (recordNew_spec _ _ _) fun _ => ?_
  split
  · exact Act.Triple.bind (recordNew_spec _ _ _) fun _ => Act.Triple.pure fun _ _ => trivial
  · exact Act.Triple.pure fun _ _ => trivial

/-! ### Runs and cycles -/

variable (run : Runtime.TaskRun)

theorem completeTask_due (summary : String) :
    Act.Triple (dueRules rt.host) (Loaded R) (rt.completeTask run summary) (fun _ _ => True)
      (fun _ _ => True) := by
  refine Act.Triple.bind (loaded_spec (ordinary_request (o := .update (.complete _)) id))
    fun _ => ?_
  refine Act.Triple.bind (loaded_spec (ordinary_newArtifact _ _ _)) fun _ => ?_
  refine Act.Triple.bind (loaded_spec (ordinary_newArtifact _ _ _)) fun _ => ?_
  refine Act.Triple.bind (loaded_spec (ordinary_guardedWrite _)) fun _ => ?_
  refine Act.Triple.bind (loaded_spec (ordinary_guardedWrite _)) fun _ => ?_
  refine Act.Triple.bind (loaded_spec (ordinary_request (o := .update (.pushArtifact _)) id))
    fun _ => ?_
  refine Act.Triple.bind (loaded_spec (ordinary_request (o := .update (.pushArtifact _)) id))
    fun _ => ?_
  refine Act.Triple.bind (completeGitLifecycle_spec _) fun status => any_spec ?_
  refine Act.uses_bind (ordinary_persistAndRequire _) fun _ => ?_
  refine Act.uses_bind (ordinary_newEvent _ _ _) fun _ => ?_
  refine Act.uses_bind (ordinary_request (o := .flush) trivial) fun _ => ?_
  refine Act.uses_bind (ordinary_guardedWrite _) fun _ => ?_
  cases status <;> exact Act.uses_pure _

theorem runTaskBody_due :
    Act.Triple (dueRules rt.host) (Loaded R) (rt.runTaskBody run) (fun _ _ => True)
      (fun _ _ => True) := by
  have hfailed : ∀ role reason, Act.Triple (dueRules rt.host) (Loaded R)
      (do
        let result ← rt.handleFailure run.handle role reason run.runId
        pure (result, RunOutcome.failed))
      (fun _ _ => True) (fun _ _ => True) := fun role reason =>
    (loaded_spec (Act.uses_bind (ordinary_handleFailure rt _ _ _ _) fun _ => Act.uses_pure _)).imp
      (fun _ h => h) (fun _ _ _ => trivial) fun _ _ h => h
  refine Act.Triple.bind (loaded_spec (ordinary_request (o := .update (.select _ _)) id))
    fun _ => ?_
  refine Act.Triple.bind (loaded_spec (ordinary_recordEvent _ _ _)) fun _ => ?_
  refine Act.Triple.bind (loaded_spec (ordinary_persistAndRequire _)) fun _ => ?_
  refine Act.Triple.bind (loaded_spec (ordinary_optimizePrompt rt run)) fun prompt => ?_
  refine Act.Triple.bind (loaded_spec (ordinary_executeTask rt run prompt)) fun response => ?_
  refine Act.Triple.bind (Q := fun _ => Loaded R) (loaded_spec ?_) fun approved => ?_
  · split
    · exact ordinary_reviewTask rt run _
    · exact Act.uses_pure _
  split
  · exact hfailed _ _
  refine Act.Triple.bind (Q := fun _ => Loaded R) (loaded_spec ?_) fun passed => ?_
  · split
    · exact ordinary_testTask rt run _
    · exact Act.uses_pure _
  split
  · exact hfailed _ _
  · exact Act.Triple.bind (loaded_spec (Act.uses_ofExcept _)) fun summary =>
      completeTask_due run summary

/-- **A run of a task.** -/
theorem runTask_due :
    Act.Triple (dueRules rt.host) (Loaded R) (rt.runTask run) (fun _ _ => True)
      (fun _ _ => True) := by
  refine Act.Triple.bind (loaded_spec (ordinary_request (o := .readState) trivial)) fun _ => ?_
  refine Act.Triple.bind (loaded_spec (ordinary_request (o := .updateShared _) trivial))
    fun _ => ?_
  refine Act.Triple.bind (loaded_spec (ordinary_request (o := .updateShared _) trivial))
    fun _ => ?_
  have hfinally : ∀ outcome, Ordinary (do
      Runtime.recordRunCostSummary run outcome
      request (.updateShared .clearBuffer)) := fun outcome =>
    Act.uses_bind (ordinary_recordRunCostSummary run outcome) fun _ => ordinary_request trivial
  refine Act.Triple.bind (Q := fun _ _ => True) ?_ fun result => Act.Triple.pure fun _ _ => trivial
  exact Act.Triple.finallyDo (runTaskBody_due run) (fun _ => any_spec (hfinally _))
    fun _ => any_spec (hfinally _)

theorem runInWorkspace_due (handle : TaskHandle) (runId : String) :
    Act.Triple (dueRules rt.host) (Loaded R) (rt.runInWorkspace handle runId) (fun _ _ => True)
      (fun _ _ => True) := by
  refine Act.Triple.bind (loaded_spec (ordinary_request (o := .readState) trivial)) fun _ => ?_
  refine Act.Triple.bind (loaded_spec (ordinary_allocateWorkspace rt _ _ _)) fun workspace => ?_
  refine Act.Triple.bind (loaded_spec (ordinary_recordNew _ _ _)) fun _ => ?_
  refine Act.Triple.bind (loaded_spec (ordinary_recordNew _ _ _)) fun _ => ?_
  have hcleanup : Ordinary (Act.ignoring (rt.cleanupWorkspace workspace)) :=
    Act.uses_ignoring (ordinary_cleanupWorkspace rt workspace)
  refine Act.Triple.finallyDo (Q := fun _ _ => True) (E := fun _ _ => True) ?_
    (fun _ => any_spec hcleanup) fun _ => any_spec hcleanup
  refine Act.Triple.catching (runTask_due _) fun error => any_spec ?_
  exact Act.uses_bind (Act.uses_ignoring (ordinary_rollbackWorkspace workspace)) fun _ =>
    Act.uses_throw _

theorem choose_ordinary (state : ProjectState) (runId : String) (forced : Option String) :
    Ordinary (match forced with
      | some taskId => pure (Runtime.selectForcedTask state taskId)
      | none => rt.selectTask runId) := by
  cases forced with
  | some taskId => exact Act.uses_pure _
  | none => exact ordinary_selectTask rt runId

theorem handleChoice_due (runId stopReason : String) (choice : Option TaskHandle) :
    Act.Triple (dueRules rt.host) (Loaded R)
      (match choice with
      | none => pure { runId, status := .idle, stopReason := some stopReason }
      | some handle => rt.runInWorkspace handle runId)
      (fun _ _ => True) (fun _ _ => True) := by
  cases choice with
  | none => exact Act.Triple.pure fun _ _ => trivial
  | some handle => exact runInWorkspace_due handle runId

theorem runUnderLease_due (runId : String) (options : Runtime.RunCycleOptions) :
    Act.Triple (dueRules rt.host) (Loaded R) (rt.runUnderLease runId options) (fun _ _ => True)
      (fun _ _ => True) := by
  unfold Runtime.runUnderLease
  refine Act.Triple.bind (loaded_spec (ordinary_request (o := .requireValid) trivial)) fun _ => ?_
  refine Act.Triple.bind (loaded_spec (ordinary_request (o := .readState) trivial))
    fun state => ?_
  generalize assertProjectState state = valid
  refine Act.Triple.bind (loaded_spec (Act.uses_ofExcept valid)) fun _ => ?_
  generalize shouldStopRun state rt.config.workflow = stop
  cases stop with
  | some reason =>
    exact Act.Triple.bind (loaded_spec (ordinary_request (o := .randomUUID) trivial))
      fun freshId => Act.Triple.pure fun _ _ => trivial
  | none =>
    dsimp only
    generalize presentText options.forcedTaskId = forced
    exact Act.Triple.bind (loaded_spec (choose_ordinary state runId forced)) fun choice =>
      handleChoice_due runId _ choice

/-- **A cycle** calls its executors behind reservations that are not stored. -/
theorem runCycle_due (options : Runtime.RunCycleOptions) :
    Act.Triple (dueRules rt.host) (fun c => c.1.store.current.registry = R)
      (rt.runCycle options) (fun _ _ => True) (fun _ _ => True) := by
  have hstored : ∀ {o : Op}, (∀ w answer, (Op.handle rt.host answer o w).2.store = w.store) →
      ¬ o.IsExecutor → Act.Triple (dueRules rt.host) (fun c => c.1.store.current.registry = R)
        (request o) (fun _ c => c.1.store.current.registry = R) (fun _ _ => True) := by
    intro o ho hexecutor
    refine triple_request (fun c _ h => absurd h hexecutor) fun c x c' hc he => ?_
    obtain ⟨⟨answer, store, hstore, heq⟩, -⟩ := he
    have hw : (Op.handle rt.host answer o { c.1 with store := store }).2 = c'.1 :=
      congrArg Prod.snd heq
    have hc' : c'.1.store.current.registry = R := by
      rw [← hw, ho]
      exact hstore.trans hc
    cases x with
    | error error => trivial
    | ok result => exact hc'
  have hload : Act.Triple (dueRules rt.host) (fun c => c.1.store.current.registry = R)
      (request .load) (fun _ => Loaded R) (fun _ _ => True) := by
    refine triple_request (fun c _ h => absurd h id) fun c x c' hc he => ?_
    obtain ⟨⟨answer, store, hstore, heq⟩, -⟩ := he
    have hregistry : store.current.registry = R := hstore.trans hc
    cases hfault : answer.fault with
    | some error =>
      simp only [Op.handle, Answer.fallible, hfault] at heq
      obtain ⟨rfl, -⟩ := Prod.mk.inj heq
      trivial
    | none =>
      simp only [Op.handle, Answer.fallible, hfault] at heq
      obtain ⟨rfl, hw⟩ := Prod.mk.inj heq
      exact ⟨by rw [← hw]; exact hregistry, by rw [← hw]; exact hregistry⟩
  refine Act.Triple.bind (hstored (fun _ _ => rfl) id) fun _ => ?_
  refine Act.Triple.bind (hstored (fun _ _ => rfl) id) fun runId => ?_
  refine Act.Triple.bind hload fun _ => ?_
  refine Act.Triple.bind (loaded_spec (ordinary_request (o := .acquireRunLease) trivial))
    fun acquired => ?_
  have hrelease : Ordinary (Act.ignoring (request .release)) :=
    Act.uses_ignoring (ordinary_request trivial)
  cases acquired with
  | false => exact Act.Triple.pure fun _ _ => trivial
  | true =>
    exact Act.Triple.finallyDo (runUnderLease_due runId options) (fun _ => any_spec hrelease)
      fun _ => any_spec hrelease

end Phases

end AiOrchestrator
