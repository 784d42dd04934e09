import AiOrchestrator.Execution.Footprint

/-!
# Observed runs

A run together with the record of its operations, their answers and the worlds they were
performed in (`RunEvent`). Between two operations of a run other clients may write to the
store, so that an operation finds any store (`Op.effect`); the run's copy of the state and
its objects are its own.

What a run has to have done before it may do something is stated on the record. The
responses of roles are read off it (`responses`): a role is called once or twice, step by
step or in one go, and what counts is the last answer. `callRole_spec` says that a call
that returns leaves the returned response at the head of the responses.
-/

namespace AiOrchestrator

/-- **The effect of an operation**, whatever it is answered and whatever other clients have
made of the store. -/
def Op.effect (host : Host) : Prog.Eff Op Op.Ans World := fun o w x w' =>
  ∃ answer store, Op.handle host answer o { w with store := store } = (x, w')

abbrev RunEvent := Prog.Event Op Op.Ans World

/-- A world with the record of the run so far, newest first. -/
abbrev Observed := World × List RunEvent

/-- Every handler of the world is covered by the effects. -/
theorem Op.effect_handle (host : Host) (answer : Answer) (o : Op) (w : World) :
    Op.effect host o w (Op.handle host answer o w).1 (Op.handle host answer o w).2 :=
  ⟨answer, w.store, rfl⟩

/-! ### Responses -/

/-- A response of a role, to a request with an input. -/
structure Response where
  name : AgentRoleName
  input : RoleInput
  response : RoleResponse name

/-- The response that an event brought. -/
def eventResponse : RunEvent → Option Response
  | ⟨.executeRole name req _, .ok response, _⟩ => some ⟨name, req.input, response⟩
  | ⟨.executeRoleStep name req _ _, .ok (.finalOutput response), _⟩ =>
    some ⟨name, req.input, response⟩
  | _ => none

/-- The responses of a record, newest first. -/
def responses (record : List RunEvent) : List Response := record.filterMap eventResponse

/-- Operations that call no role bring no response. -/
theorem eventResponse_eq_none {e : RunEvent} (hrole : e.op.kind ≠ .role)
    (hexecute : e.op.kind ≠ .execute) : eventResponse e = none := by
  obtain ⟨o, x, w⟩ := e
  cases o with
  | executeRole name req context =>
    exfalso
    cases hinput : req.input <;> simp [Op.kind, RoleInput.kind, hinput] at hrole hexecute
  | executeRoleStep name req context observations =>
    exfalso
    cases hinput : req.input <;> simp [Op.kind, RoleInput.kind, hinput] at hrole hexecute
  | _ => rfl

theorem responses_cons_of_none {e : RunEvent} {record : List RunEvent}
    (h : eventResponse e = none) : responses (e :: record) = responses record := by
  rw [responses, List.filterMap_cons_none h]
  rfl

theorem responses_cons_of_some {e : RunEvent} {record : List RunEvent} {x : Response}
    (h : eventResponse e = some x) : responses (e :: record) = x :: responses record := by
  rw [responses, List.filterMap_cons_some h]
  rfl

/-! ### Rules with a record -/

section Rules

variable {R : Prog.Rules Op Op.Ans Observed} {α : Type}

theorem wp_request {o : Op} {Q : o.Ans → Observed → Prop} {c : Observed} :
    Act.wp R (request o) Q c ↔ R.allowed o c ∧ ∀ x c', R.effect o c x c' → Q x c' := Iff.rfl

theorem triple_request {o : Op} {P : Observed → Prop} {Q : o.Result → Observed → Prop}
    {E : RuntimeError → Observed → Prop} (hallowed : ∀ c, P c → R.allowed o c)
    (heffect : ∀ c x c', P c → R.effect o c x c' → Act.outcome Q E x c') :
    Act.Triple R P (request o) Q E := by
  intro c hc
  rw [wp_request]
  exact ⟨hallowed c hc, fun x c' he => heffect c x c' hc he⟩

end Rules

section Stable

variable {S : Type} {R : Prog.Rules Op Op.Ans S} {α : Type}

/-- The rules keep an invariant through all operations of a sort. -/
def Stable (R : Prog.Rules Op Op.Ans S) (P : Op → Prop) (I : S → Prop) : Prop :=
  ∀ o c, P o → I c → R.allowed o c ∧ ∀ x c', R.effect o c x c' → I c'

theorem Stable.mono {P P' : Op → Prop} {I : S → Prop} (h : Stable R P I)
    (hP : ∀ o, P' o → P o) : Stable R P' I :=
  fun o c ho hc => h o c (hP o ho) hc

theorem Stable.and {P : Op → Prop} {I J : S → Prop} (hI : Stable R P I)
    (hJ : Stable R P J) : Stable R P (fun c => I c ∧ J c) := by
  intro o c ho hc
  have hi := hI o c ho hc.1
  exact ⟨hi.1, fun x c' he => ⟨hi.2 x c' he, (hJ o c ho hc.2).2 x c' he⟩⟩

theorem Stable.keeps {P : Op → Prop} {I : S → Prop} (h : Stable R P I) {m : Action α}
    (hm : Act.Uses P m) : Act.Keeps R I m :=
  Act.keeps_of_uses hm (fun o c ho hc => (h o c ho hc).1)
    (fun o c x c' ho hc he => (h o c ho hc).2 x c' he)

theorem Stable.keeps_request {P : Op → Prop} {I : S → Prop} (h : Stable R P I) {o : Op}
    (ho : P o) : Act.Keeps R I (request o) :=
  Stable.keeps h ⟨ho, fun _ => trivial⟩

end Stable

/-! ### Policy decisions -/

/-- The query by which `persistAndRequire` reads its decision back. -/
def PersistPolicyDecisionInput.query (input : PersistPolicyDecisionInput) : PolicyDecisionQuery where
  runId := input.runId
  stepId := input.stepId
  attempt := input.attempt
  actionType := input.actionType

/-- The store returned a decision that allows the action. -/
def PersistedAllow (input : PersistPolicyDecisionInput) (record : List RunEvent) : Prop :=
  ∃ (w : World) (decision : ExecutionPolicyDecision),
    ⟨.getPolicyDecision input.query, .ok (some decision), w⟩ ∈ record ∧ decision.decision = .allow

theorem PersistedAllow.cons {input : PersistPolicyDecisionInput} {record : List RunEvent}
    (h : PersistedAllow input record) (e : RunEvent) : PersistedAllow input (e :: record) := by
  obtain ⟨w, decision, hmem, hallow⟩ := h
  exact ⟨w, decision, List.mem_cons_of_mem e hmem, hallow⟩

theorem requirePersisted_ok {actionType : ExecutionPolicyActionType} {inputHash : String}
    {persisted : Option ExecutionPolicyDecision}
    (h : requirePersisted actionType inputHash persisted = .ok ()) :
    ∃ decision, persisted = some decision ∧ decision.decision = .allow := by
  cases persisted with
  | none => cases h
  | some decision =>
    refine ⟨decision, rfl, ?_⟩
    simp only [requirePersisted] at h
    split_ifs at h with hstale hallow
    exact not_not.mp hallow

/-! ### Calls of roles -/

/-- The response is the last one of the record. -/
def Answered (name : AgentRoleName) (input : RoleInput) (response : RoleResponse name)
    (record : List RunEvent) : Prop :=
  (responses record).head? = some ⟨name, input, response⟩

/-- What is quiet brings no response. -/
theorem eventResponse_of_quiet {e : RunEvent} (h : e.op.kind.quiet) : eventResponse e = none := by
  apply eventResponse_eq_none
  · intro hkind
    rw [hkind] at h
    exact h
  · intro hkind
    rw [hkind] at h
    exact h

section Roles

variable {S : Type} {R : Prog.Rules Op Op.Ans S} (rt : Runtime) {name : AgentRoleName}
  {I : S → Prop} {Q : RoleResponse name → S → Prop} {E : RuntimeError → S → Prop}
  {P : Op → Prop}

/-- The record of a run step is made by quiet operations that do not look at the signal. -/
theorem uses_runStep (host : Host) (input : RecordRunStepInput) :
    Act.Uses (fun o => o.kind.quiet ∧ o ≠ .aborted) (RunStepRecorder.record host input) := by
  have hquiet : ∀ {o : Op}, o.kind.quiet → o ≠ .aborted →
      Act.Uses (fun o => o.kind.quiet ∧ o ≠ .aborted) (request o) := fun h hne =>
    uses_request ⟨h, hne⟩
  refine Act.uses_bind (hquiet (o := .randomUUID) trivial (by simp)) fun stepId => ?_
  refine Act.uses_bind (hquiet (o := .readShared) trivial (by simp)) fun shared => ?_
  refine Act.uses_bind (Act.uses_ite (Act.uses_pure _)
    (hquiet (o := .loadScope) trivial (by simp))) fun scope => ?_
  refine Act.uses_bind (hquiet (o := .now) trivial (by simp)) fun createdAt => ?_
  refine Act.uses_bind ?_ fun revision => hquiet (o := .updateShared _) trivial (by simp)
  exact Act.uses_bind (hquiet (o := .requireValid) trivial (by simp)) fun _ =>
    hquiet (o := .write (.recordRunStep _)) trivial (by simp)

/-- **A role call** returns a response of the action loop: what the loop gives for its response
holds of the response of the call. Around the loop the signal is not looked at. -/
theorem executeRole_of_loop {role : AgentRole name} {req : RoleRequest}
    {context : RoleExecutionContext} (hP : ∀ o : Op, o.kind.quiet → o ≠ .aborted → P o)
    (hI : Stable R P I) (hloop : Act.Triple R I (rt.executeRoleWithLoop role context) Q E)
    (hQ : ∀ response, Stable R P (Q response)) (hQI : ∀ response c, Q response c → I c)
    (hE : ∀ error c, I c → E error c)
    (hvalidate : ∀ response, Act.Uses P (role.validate response)) :
    Act.Triple R I (rt.executeRole role req context) Q E := by
  have hrequest : ∀ {o : Op}, o.kind.quiet → o ≠ .aborted → Act.Uses P (request o) := fun h hne =>
    uses_request (hP _ h hne)
  have hrecord : ∀ input, Act.Uses P (RunStepRecorder.record rt.host input) := fun input =>
    (uses_runStep rt.host input).mono fun o h => hP o h.1 h.2
  -- Up to the loop the invariant `I` is kept, behind it what the loop gives for its response; a
  -- response that is not valid is repaired by one more loop.
  have hbefore : ∀ {β : Type} {m : Action β}, Act.Uses P m →
      Act.Triple R I m (fun _ => I) E := fun hm =>
    (hI.keeps hm).imp (fun _ h => h) (fun _ _ h => h) fun e c h => hE e c h
  have hafter : ∀ response {β : Type} {m : Action β}, Act.Uses P m →
      Act.Triple R (Q response) m (fun _ => Q response) (fun _ => I) := fun response {β} {m} hm =>
    ((hQ response).keeps hm).imp (fun _ h => h) (fun _ _ h => h) fun _ c h => hQI response c h
  have hcheck : ∀ response, Act.Uses P (Runtime.checkResponse role response) := fun response =>
    Act.uses_bind (hvalidate response) fun _ => Act.uses_ofExcept _
  have haccept : ∀ model startedAt (response : RoleResponse name),
      Act.Uses P (rt.acceptResponse req context model startedAt response) := fun _ _ _ =>
    Act.uses_bind (hrequest (o := .dateNow) trivial (by simp)) fun _ =>
      Act.uses_bind (hrecord _) fun _ => hrequest (o := .updateShared _) trivial (by simp)
  refine Act.Triple.bind (hbefore (hrequest (o := .dateNow) trivial (by simp)))
    fun startedAt => ?_
  refine Act.Triple.bind (hbefore (hrequest (o := .readCost) trivial (by simp)))
    fun shared => ?_
  refine Act.Triple.bind (hbefore (Act.uses_ofExcept _)) fun _ => ?_
  refine Act.Triple.bind (hbefore (hrequest (o := .updateShared _) trivial (by simp)))
    fun _ => ?_
  refine Act.Triple.bind hloop fun first => ?_
  refine Act.Triple.catching (E := fun _ => I) ?_ fun _ => ?_
  · refine Act.Triple.bind (hafter first (hcheck first)) fun _ => ?_
    exact Act.Triple.bind (hafter first (haccept _ _ first)) fun _ => Act.Triple.pure fun _ h => h
  · refine Act.Triple.bind hloop fun second => ?_
    have hsecond : ∀ {β : Type} {m : Action β}, Act.Uses P m →
        Act.Triple R (Q second) m (fun _ => Q second) E := fun hm =>
      (hafter second hm).imp (fun _ h => h) (fun _ _ h => h) hE
    refine Act.Triple.bind (Q := fun _ => Q second) ?_ fun _ => ?_
    · refine Act.Triple.catching (hafter second (hcheck second)) fun _ => ?_
      refine Act.Triple.bind (hbefore (hrequest (o := .dateNow) trivial (by simp))) fun _ => ?_
      exact Act.Triple.bind (hbefore (hrecord _)) fun _ => Act.Triple.throw fun c h => hE _ c h
    · exact Act.Triple.bind (hsecond (haccept _ _ second)) fun _ => Act.Triple.pure fun _ h => h

/-- The same where all quiet operations keep the invariants. -/
theorem executeRole_spec {role : AgentRole name} {req : RoleRequest}
    {context : RoleExecutionContext} (hI : Stable R (fun o => o.kind.quiet) I)
    (hloop : Act.Triple R I (rt.executeRoleWithLoop role context) Q (fun _ => I))
    (hQ : ∀ response, Stable R (fun o => o.kind.quiet) (Q response))
    (hQI : ∀ response c, Q response c → I c)
    (hvalidate : ∀ response, Act.Uses (fun o => o.kind.quiet) (role.validate response)) :
    Act.Triple R I (rt.executeRole role req context) Q (fun _ => I) :=
  executeRole_of_loop rt (fun _ h _ => h) hI hloop hQ hQI (fun _ _ h => h) hvalidate

end Roles

section Calls

variable {R : Prog.Rules Op Op.Ans Observed} {eff : Prog.Eff Op Op.Ans World}
  (heff : R.effect = Prog.recorded eff) {I : Observed → Prop} {name : AgentRoleName}

theorem stable_quiet {input : RoleInput} (hI : Stable R (CallOp name input) I) :
    Stable R (fun o => o.kind.quiet) I := hI.mono fun _ h => .quiet h

include heff in
/-- Quiet operations keep the last response. -/
theorem stable_answered {input : RoleInput} (hI : Stable R (CallOp name input) I)
    (response : RoleResponse name) :
    Stable R (fun o => o.kind.quiet) (fun c => I c ∧ Answered name input response c.2) := by
  intro o c ho hc
  have hi := stable_quiet hI o c ho hc.1
  refine ⟨hi.1, fun x c' he => ⟨hi.2 x c' he, ?_⟩⟩
  rw [heff] at he
  rw [he.2]
  unfold Answered
  rw [responses_cons_of_none (eventResponse_of_quiet ho)]
  exact hc.2

variable {req : RoleRequest} {context : RoleExecutionContext} (hI : Stable R (CallOp name req.input) I)

include heff hI in
theorem executeOnce_spec :
    Act.Triple R I (runWithTimeout context (request (.executeRole name req context)))
      (fun response c => I c ∧ Answered name req.input response c.2) (fun _ => I) := by
  refine Act.Triple.bind ((stable_quiet hI).keeps (uses_signalAborted (fun _ h => h.quiet) context)) fun aborted => ?_
  split
  · exact Act.Triple.throw fun _ hc => hc
  · refine triple_request (fun c hc => (hI _ c (.execute rfl) hc).1) fun c x c' hc he => ?_
    have hi := (hI _ c (.execute rfl) hc).2 x c' he
    cases x with
    | error e => exact hi
    | ok response =>
      refine ⟨hi, ?_⟩
      rw [heff] at he
      rw [he.2]
      rfl

include heff hI in
theorem executeStep_spec (observations : List RoleObservation) :
    Act.Triple R I (runWithTimeout context (request (.executeRoleStep name req context observations)))
      (fun result c => I c ∧ ∀ response, result = .finalOutput response →
        Answered name req.input response c.2) (fun _ => I) := by
  refine Act.Triple.bind ((stable_quiet hI).keeps (uses_signalAborted (fun _ h => h.quiet) context)) fun aborted => ?_
  split
  · exact Act.Triple.throw fun _ hc => hc
  · refine triple_request (fun c hc => (hI _ c (.step rfl) hc).1) fun c x c' hc he => ?_
    have hi := (hI _ c (.step rfl) hc).2 x c' he
    cases x with
    | error e => exact hi
    | ok result =>
      refine ⟨hi, ?_⟩
      rintro response rfl
      rw [heff] at he
      rw [he.2]
      rfl

variable (rt : Runtime)

include heff hI in
theorem roleLoop_spec (roleStartedAt remaining n : Nat) (observations : List RoleObservation) :
    Act.Triple R I
      (rt.roleLoop
        (fun observations =>
          runWithTimeout context (request (.executeRoleStep name req context observations)))
        context roleStartedAt remaining n observations)
      (fun response c => I c ∧ Answered name req.input response c.2) (fun _ => I) := by
  have hquiet := stable_quiet hI
  induction remaining generalizing n observations with
  | zero => exact Act.Triple.throw fun _ hc => hc
  | succ remaining ih =>
    refine Act.Triple.bind (hquiet.keeps_request trivial) fun _ => ?_
    split
    · exact Act.Triple.throw fun _ hc => hc
    refine Act.Triple.bind (hquiet.keeps (uses_signalAborted (fun _ h => h.quiet) context)) fun _ => ?_
    split
    · exact Act.Triple.throw fun _ hc => hc
    refine Act.Triple.bind (executeStep_spec heff hI observations) fun result => ?_
    cases result with
    | finalOutput response => exact fun c hc => ⟨hc.1, hc.2 response rfl⟩
    | toolRequest call =>
      have hobserve : Act.Keeps R I (rt.observeTool call n name.text context) :=
        hquiet.keeps <| does_observeTool (P := OpKind.quiet) rt trivial trivial trivial trivial call
          n name.text context
      refine Act.Triple.bind (Q := fun _ => I) ?_ fun observation => ih _ _
      exact hobserve.imp (fun c hc => hc.1) (fun _ _ h => h) (fun _ _ h => h)

include heff hI in
theorem executeRoleWithLoop_spec :
    Act.Triple R I (rt.executeRoleWithLoop (rt.registeredRole name req context) context)
      (fun response c => I c ∧ Answered name req.input response c.2) (fun _ => I) := by
  unfold Runtime.executeRoleWithLoop Runtime.registeredRole
  dsimp only
  split
  · exact executeOnce_spec heff hI
  · next executeStep hstep =>
    split at hstep
    · cases hstep
      refine Act.Triple.bind ((stable_quiet hI).keeps_request trivial) fun _ => ?_
      exact roleLoop_spec heff hI rt _ _ _ _
    · cases hstep

include heff hI in
theorem answered_spec :
    Act.Triple R I (rt.executeRole (rt.registeredRole name req context) req context)
      (fun response c => I c ∧ Answered name req.input response c.2) (fun _ => I) :=
  executeRole_spec rt (stable_quiet hI) (executeRoleWithLoop_spec heff hI rt)
    (fun response => stable_answered heff hI response) (fun _ _ h => h.1)
    fun _ => uses_request trivial

end Calls

section Calls

variable {R : Prog.Rules Op Op.Ans Observed} {eff : Prog.Eff Op Op.Ans World}
  (heff : R.effect = Prog.recorded eff) {I : Observed → Prop} (rt : Runtime)

include heff in
/-- A stage's call of a role. -/
theorem callRole_spec (run : Runtime.TaskRun) (name : AgentRoleName) (objective : String)
    {input : RoleInput} (acceptanceCriteria : List String)
    (hI : Stable R (CallOp name input) I) :
    Act.Triple R I (rt.callRole run name objective input acceptanceCriteria)
      (fun response c => I c ∧ Answered name input response c.2) (fun _ => I) := by
  refine Act.Triple.bind ((hI.mono fun _ h => CallOp.quiet h).keeps_request trivial)
    fun state => ?_
  exact @answered_spec _ _ heff _ _ { role := name, objective, input, acceptanceCriteria } _ hI rt

include heff in
/-- **A policy decision** that was required was read back from the store as allowing. -/
theorem persistAndRequire_spec (input : PersistPolicyDecisionInput)
    (hI : Stable R (fun o => o.kind = .observe ∨ o.kind = .note ∨ o.kind = .assign) I) :
    Act.Triple R I (PolicyDecisionRecorder.persistAndRequire input)
      (fun _ c => I c ∧ PersistedAllow input c.2) (fun _ => I) := by
  have hobserve : ∀ {o : Op}, o.kind = .observe → Act.Keeps R I (request o) := fun h =>
    hI.keeps_request (Or.inl h)
  refine Act.Triple.bind (hobserve rfl) fun decisionId => ?_
  refine Act.Triple.bind (hobserve rfl) fun state => ?_
  refine Act.Triple.bind (hobserve rfl) fun decidedAt => ?_
  refine Act.Triple.bind (Act.keeps_bind (hobserve rfl) fun _ =>
    hI.keeps_request (Or.inr (Or.inl rfl))) fun _ => ?_
  refine Act.Triple.bind (hI.keeps_request (Or.inr (Or.inr rfl))) fun _ => ?_
  refine Act.Triple.bind (Q := fun persisted c => I c ∧ ∃ w : World,
    ⟨.getPolicyDecision input.query, .ok persisted, w⟩ ∈ c.2) ?_ fun persisted => ?_
  · refine triple_request (fun c hc => (hI _ c (Or.inl rfl) hc).1) fun c x c' hc he => ?_
    have hi := (hI _ c (Or.inl rfl) hc).2 x c' he
    cases x with
    | error e => exact hi
    | ok persisted =>
      refine ⟨hi, c.1, ?_⟩
      rw [heff] at he
      rw [he.2]
      exact List.mem_cons_self
  · intro c hc
    rw [Act.wp_ofExcept]
    cases hrequire : requirePersisted input.actionType _ persisted with
    | error e => exact hc.1
    | ok u =>
      obtain ⟨decision, hsome, hallow⟩ := requirePersisted_ok hrequire
      obtain ⟨hi, w, hmem⟩ := hc
      exact ⟨hi, w, decision, hsome ▸ hmem, hallow⟩

end Calls

end AiOrchestrator
