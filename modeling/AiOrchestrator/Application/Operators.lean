import AiOrchestrator.Application.Services
import AiOrchestrator.Execution.AttemptRuns

/-!
# What operators do to a store

The services of `Application.Services` as outcomes: an operator's action resumes or replays one
failure, or decides about one approval request, and saves the whole copy. Wherever an action is broken
off, what the store holds comes from what it held before by such outcomes and by records on the side
(`operate_accounted`).
-/

namespace AiOrchestrator

open ProjectState

/-- **What an operator does.** -/
inductive OperatorAction
  | resumeFailure (failureId : String)
  | replayFromFailureCheckpoint (failureId : String)
  | decideApproval (requestId : String) (decision : ApprovalDecision)
      (links : ApprovalDecisionLinkInput)

/-- The service that the operator calls. -/
def OperatorAction.program : OperatorAction → Action Unit
  | .resumeFailure failureId => AiOrchestrator.resumeFailure failureId
  | .replayFromFailureCheckpoint failureId => AiOrchestrator.replayFromFailureCheckpoint failureId
  | .decideApproval requestId decision links => AiOrchestrator.decideApproval requestId decision links

/-- The outcomes of operators' actions. -/
def ProjectState.OutcomeKind.ByOperator : OutcomeKind → Prop
  | .recorded | .resumed | .replayed => True
  | .failed | .completed | .split | .blocked | .markedDone => False

/-- **Accounted for**: the state is accepted, and comes from the start by outcomes of operators. -/
structure Accounted (start current : ProjectState) : Prop where
  outcomes : Outcomes OutcomeKind.ByOperator start current
  accepted : current.Valid

/-- The rules of an action: whenever an operation is performed, the store is accounted for. -/
def operatorRules (host : Host) (start : ProjectState) : Prog.Rules Op Op.Ans Observed where
  allowed _ c := Accounted start c.1.store.current
  effect := Prog.recorded (Op.amidRecords host)

section

variable {host : Host} {start loaded : ProjectState}

theorem Accounted.beside {current next : ProjectState} (h : Accounted start current)
    (hbeside : current.Beside next) (hvalid : current.Valid → next.Valid) : Accounted start next :=
  have hnext := hvalid h.accepted
  ⟨h.outcomes.tail ⟨.recorded, trivial, .recorded (hbeside.recorded hnext.recordsOk)⟩, hnext⟩

/-- **The stage of an action** that has loaded a state: the store is accounted for, and the copy is the
loaded state after an update. -/
structure Prepared (start loaded : ProjectState) (update : ProjectState → ProjectState)
    (w : World) : Prop where
  store : Accounted start w.store.current
  origin : Accounted start loaded
  copy : w.state = update loaded

/-- What the copy is loaded from. -/
theorem load_accounted :
    Act.Triple (operatorRules host start) (fun c => Accounted start c.1.store.current)
      (request .load) (fun _ c => ∃ loaded, Prepared start loaded id c.1)
      (fun _ c => Accounted start c.1.store.current) := by
  refine triple_request (fun c hc => hc) fun c x c' hc he => ?_
  obtain ⟨⟨answer, store, hbeside, hvalid, heq⟩, -⟩ := he
  have hfound := hc.beside hbeside hvalid
  simp only [Op.handle, Answer.fallible] at heq
  split at heq
  · obtain ⟨rfl, hw⟩ := Prod.mk.inj heq
    show Accounted start c'.1.store.current
    rw [← hw]
    exact hfound
  · obtain ⟨rfl, hw⟩ := Prod.mk.inj heq
    show ∃ loaded, Prepared start loaded id c'.1
    rw [← hw]
    exact ⟨store.current, hfound, hfound, rfl⟩

/-- Reading the copy. -/
theorem readLoaded_accounted :
    Act.Triple (operatorRules host start) (fun c => Prepared start loaded id c.1)
      (request .readState) (fun state c => Prepared start loaded id c.1 ∧ loaded = state)
      (fun _ c => Accounted start c.1.store.current) := by
  refine triple_request (fun c hc => hc.store) fun c x c' hc he => ?_
  obtain ⟨⟨answer, store, hbeside, hvalid, heq⟩, -⟩ := he
  obtain ⟨rfl, hw⟩ := Prod.mk.inj heq
  show Prepared start loaded id c'.1 ∧ loaded = c.1.state
  rw [← hw]
  exact ⟨⟨hc.store.beside hbeside hvalid, hc.origin, hc.copy⟩, hc.copy.symm⟩

variable {update : ProjectState → ProjectState}

/-- Times and ids are drawn. -/
theorem draw_accounted {o : Op} (ho : o = .now ∨ o = .randomUUID) :
    Act.Triple (operatorRules host start) (fun c => Prepared start loaded update c.1) (request o)
      (fun _ c => Prepared start loaded update c.1) (fun _ c => Accounted start c.1.store.current) := by
  refine triple_request (fun c hc => hc.store) fun c x c' hc he => ?_
  obtain ⟨⟨answer, store, hbeside, hvalid, heq⟩, -⟩ := he
  rcases ho with rfl | rfl
  · obtain ⟨rfl, hw⟩ := Prod.mk.inj heq
    show Prepared start loaded update c'.1
    rw [← hw]
    exact ⟨hc.store.beside hbeside hvalid, hc.origin, hc.copy⟩
  · obtain ⟨rfl, hw⟩ := Prod.mk.inj heq
    show Prepared start loaded update c'.1
    rw [← hw]
    exact ⟨hc.store.beside hbeside hvalid, hc.origin, hc.copy⟩

theorem newServiceEvent_accounted (eventType : DomainEventType) (payload : List (String × Json Nat))
    (runId : Option String) :
    Act.Triple (operatorRules host start) (fun c => Prepared start loaded update c.1)
      (newServiceEvent eventType payload runId) (fun _ c => Prepared start loaded update c.1)
      (fun _ c => Accounted start c.1.store.current) :=
  Act.Triple.bind (draw_accounted (.inr rfl)) fun _ =>
    Act.Triple.bind (draw_accounted (.inl rfl)) fun _ => Act.Triple.pure fun _ h => h

/-- The assignment of an action. -/
theorem update_accounted (u : Update) :
    Act.Triple (operatorRules host start) (fun c => Prepared start loaded id c.1)
      (request (.update u)) (fun _ c => Prepared start loaded u.apply c.1)
      (fun _ c => Accounted start c.1.store.current) := by
  refine triple_request (fun c hc => hc.store) fun c x c' hc he => ?_
  obtain ⟨⟨answer, store, hbeside, hvalid, heq⟩, -⟩ := he
  obtain ⟨rfl, hw⟩ := Prod.mk.inj heq
  show Prepared start loaded u.apply c'.1
  rw [← hw]
  exact ⟨hc.store.beside hbeside hvalid, hc.origin, congrArg u.apply hc.copy⟩

/-- **The save of an action**: an update that is an outcome is accounted for when it is saved. -/
theorem saveUnguarded_accounted
    (houtcome : ∀ state', (update loaded).Recorded state' →
      ∃ kind : OutcomeKind, kind.ByOperator ∧ Outcome kind loaded state')
    (events : List DomainEvent) :
    Act.Triple (operatorRules host start) (fun c => Prepared start loaded update c.1)
      (saveUnguarded events) (fun _ c => Accounted start c.1.store.current)
      (fun _ c => Accounted start c.1.store.current) := by
  refine triple_request (fun c hc => hc.store) fun c x c' hc he => ?_
  obtain ⟨⟨answer, store, hbeside, hvalid, heq⟩, -⟩ := he
  cases x with
  | error error =>
    show Accounted start c'.1.store.current
    rw [world_of_write_error heq]
    exact hc.store.beside hbeside hvalid
  | ok u =>
    obtain ⟨next, hnext, hresult⟩ := Except.bind_ok_iff.mp (apply_of_write_ok heq)
    obtain ⟨haccepted, -, rfl⟩ := InMemoryStateStore.commitSnapshot_ok_iff.mp hnext
    obtain ⟨-, hpair⟩ := Prod.mk.inj (Except.ok.inj hresult)
    obtain ⟨-, hstore⟩ := Prod.mk.inj hpair
    show Accounted start c'.1.store.current
    rw [← hstore]
    have hsaved : (c.1.state.atRevision (store.current.revision + 1)).Valid := haccepted.atRevision _
    refine ⟨hc.origin.outcomes.tail (houtcome _ ?_), hsaved⟩
    rw [← hc.copy]
    exact (beside_atRevision c.1.state _).recorded hsaved.recordsOk

/-- The last part of each action: its update, its event and its save. -/
theorem saveChange_accounted (u : Update)
    (houtcome : ∀ state', (u.apply loaded).Recorded state' →
      ∃ kind : OutcomeKind, kind.ByOperator ∧ Outcome kind loaded state')
    (eventType : DomainEventType) (payload : List (String × Json Nat)) (runId : Option String) :
    Act.Triple (operatorRules host start) (fun c => Prepared start loaded id c.1)
      (do
        request (.update u)
        let event ← newServiceEvent eventType payload runId
        saveUnguarded [event])
      (fun _ c => Accounted start c.1.store.current)
      (fun _ c => Accounted start c.1.store.current) :=
  Act.Triple.bind (update_accounted u) fun _ =>
    Act.Triple.bind (newServiceEvent_accounted _ _ _) fun event =>
      saveUnguarded_accounted houtcome [event]

theorem Update.apply_resumeFailure {loaded : ProjectState} {failureId now : String}
    {result : ProjectState × FailureRecord}
    (h : loaded.resumeFailure failureId now = .ok result) :
    Update.apply (.resumeFailure failureId now) loaded = result.1 := by
  rw [Update.apply, h]

theorem Update.apply_replayFailure {loaded : ProjectState} {failureId now : String}
    {result : ProjectState × FailureRecord}
    (h : loaded.replayFromFailureCheckpoint failureId now = .ok result) :
    Update.apply (.replayFailure failureId now) loaded = result.1 := by
  rw [Update.apply, h]

/-- **An operator's action** on a store. -/
theorem operate_accounted (action : OperatorAction) :
    Act.Triple (operatorRules host start) (fun c => Accounted start c.1.store.current)
      action.program (fun _ c => Accounted start c.1.store.current)
      (fun _ c => Accounted start c.1.store.current) := by
  have hfails : ∀ {α : Type} {loaded : ProjectState} {update : ProjectState → ProjectState}
      {Q : α → Observed → Prop} (error : RuntimeError),
      Act.Triple (operatorRules host start) (fun c => Prepared start loaded update c.1)
        (throw error : Action α) Q (fun _ c => Accounted start c.1.store.current) := fun _ =>
    Act.Triple.throw fun _ h => h.store
  have hchecked : ∀ {α : Type} {loaded : ProjectState} (r : Except RuntimeError α),
      Act.Triple (operatorRules host start) (fun c => Prepared start loaded id c.1)
        (Act.ofExcept r : Action α) (fun a c => Prepared start loaded id c.1 ∧ r = .ok a)
        (fun _ c => Accounted start c.1.store.current) := fun r =>
    (Act.Triple.ofExcept r).imp (fun _ h => h) (fun _ _ h => h) fun _ _ h => h.store
  have hbegin : ∀ {m : Action Unit}, (∀ loaded, Act.Triple (operatorRules host start)
      (fun c => Prepared start loaded id c.1) m (fun _ c => Accounted start c.1.store.current)
      (fun _ c => Accounted start c.1.store.current)) →
      Act.Triple (operatorRules host start) (fun c => Accounted start c.1.store.current)
        (do request .load; m) (fun _ c => Accounted start c.1.store.current)
        (fun _ c => Accounted start c.1.store.current) := by
    intro m hm
    refine Act.Triple.bind load_accounted fun _ c hc => ?_
    obtain ⟨loaded, hprepared⟩ := hc
    exact hm loaded c hprepared
  cases action with
  | resumeFailure failureId =>
    refine hbegin fun loaded => ?_
    refine Act.Triple.bind readLoaded_accounted fun state => Act.Triple.pull ?_
    rintro rfl
    refine Act.Triple.bind (draw_accounted (.inl rfl)) fun now => ?_
    refine Act.Triple.bind (hchecked _) fun result => Act.Triple.pull fun hok => ?_
    refine saveChange_accounted _ (fun state' hrecorded => ?_) _ _ _
    rw [Update.apply_resumeFailure hok] at hrecorded
    exact ⟨.resumed, trivial, .resumed hok hrecorded⟩
  | replayFromFailureCheckpoint failureId =>
    refine hbegin fun loaded => ?_
    refine Act.Triple.bind readLoaded_accounted fun state => Act.Triple.pull ?_
    rintro rfl
    refine Act.Triple.bind (draw_accounted (.inl rfl)) fun now => ?_
    refine Act.Triple.bind (hchecked _) fun result => Act.Triple.pull fun hok => ?_
    refine saveChange_accounted _ (fun state' hrecorded => ?_) _ _ _
    rw [Update.apply_replayFailure hok] at hrecorded
    exact ⟨.replayed, trivial, .replayed hok hrecorded⟩
  | decideApproval requestId decision links =>
    refine hbegin fun loaded => ?_
    refine Act.Triple.bind readLoaded_accounted fun state => Act.Triple.pull ?_
    rintro rfl
    split
    · exact hfails _
    · next index hindex =>
      split
      · exact hfails _
      · refine Act.Triple.bind (draw_accounted (.inl rfl)) fun now => ?_
        refine Act.Triple.bind (hchecked _) fun updated => Act.Triple.pull fun hok => ?_
        refine saveChange_accounted _ (fun state' hrecorded => ?_) _ _ _
        have hbeside : loaded.Beside (Update.apply (.setApproval index updated) loaded) :=
          ⟨⟨rfl, rfl, rfl, rfl, rfl⟩, ⟨rfl, rfl, rfl, rfl, rfl, rfl⟩, fun _ h => h, rfl⟩
        refine ⟨.recorded, trivial, .recorded ⟨?_, ?_, ?_, hrecorded.records⟩⟩
        · exact hbeside.book.trans hrecorded.book
        · exact hbeside.frame.trans hrecorded.frame
        · exact fun artifact hmem => hrecorded.artifacts artifact hmem

end

end AiOrchestrator
