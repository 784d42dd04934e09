import AiOrchestrator.Execution.Footprint
import AiOrchestrator.Tools.Writes

/-!
# Tool calls of a role

`RoleRunner.execute` with its tools carried out by a local tool set, for any answers of the roles, the
store and the system (`Surroundings`). An observation of success that a step is given comes from a
call of the tool set that succeeded (`executeRole_backed`), and none comes from a write that was
refused (`carryOut_refused`).
-/

namespace AiOrchestrator

/-! ### Carrying out tool calls -/

def ToolCallRequest.unified (call : ToolCallRequest) : UnifiedToolRequest where
  toolName := call.toolName
  input := call.input

/-- The `executionContext` that `executeTool` passes on. -/
def RoleExecutionContext.toolContext (context : RoleExecutionContext) :
    ToolExecutionWorkspaceContext where
  workspaceRoot := context.workspaceRoot
  policy := some context.policy.text
  permissionScope := some context.permissionScope.text

/-- **The surroundings** of a role runner with a tool set. -/
structure Surroundings (σ : Type) where
  operation : (o : Op) → σ → o.Ans × σ
  system : (o : SystemCall) → σ → o.Ans × σ
  /-- The error of a timer of the role runner that fires before the tool set has answered. -/
  late : σ → Option RuntimeError
  host : ToolHost
  policy : ToolPolicyAdapter
  /-- The value that an output is. -/
  value : ToolOutput → UnknownValue

namespace Surroundings

variable {σ : Type} (env : Surroundings σ)

/-- What `executeTool` makes of the answer of the tool set. -/
def settle : Except ToolError UnifiedToolResult → Except RuntimeError UnknownValue
  | .ok result =>
    match result.result with
    | .ok output => .ok (env.value output)
    | .error envelope => .error (.workflowPolicy envelope.message (some "TOOL_ERROR_ENVELOPE"))
  | .error error => .error (.plain error.message)

/-- A call of the tool set. -/
def runTool (call : ToolCallRequest) (context : RoleExecutionContext) (s : ToolState σ) :
    Except ToolError UnifiedToolResult × ToolState σ × List (CallEvent σ) :=
  LocalToolSet.run env.system env.host env.policy call.unified context.toolContext s

/-- Operations are answered by the surroundings, and tool calls by the tool set. -/
def carryOut : (o : Op) → ToolState σ → o.Ans × ToolState σ
  | .executeTool call context, s =>
    let (result, s', _) := env.runTool call context s
    (match env.late s'.1 with
      | some error => .error error
      | none => env.settle result, s')
  | o, s => ((env.operation o s.1).1, (env.operation o s.1).2, s.2)

end Surroundings

namespace ToolCalls

/-! ### Observations -/

section Observations

variable {S : Type}

/-- An operation that was performed, with its answer. -/
abbrev OpEvent (S : Type) := Prog.Event Op Op.Ans S

/-- A call of a tool that was answered with an output. -/
def Succeeded (toolName : String) (record : List (OpEvent S)) : Prop :=
  ∃ call context output before, call.toolName = toolName ∧
    ⟨.executeTool call context, .ok output, before⟩ ∈ record

/-- An observation of success is of a call that succeeded. -/
def Backed (record : List (OpEvent S)) (observation : RoleObservation) : Prop :=
  observation.ok = true → Succeeded observation.toolName record

theorem Succeeded.cons {toolName : String} {record : List (OpEvent S)}
    (h : Succeeded toolName record) (e : OpEvent S) : Succeeded toolName (e :: record) := by
  obtain ⟨call, context, output, before, hname, hmem⟩ := h
  exact ⟨call, context, output, before, hname, List.mem_cons_of_mem e hmem⟩

/-- A step may be given backed observations only. -/
def stepRules (eff : Prog.Eff Op Op.Ans S) : Prog.Rules Op Op.Ans (S × List (OpEvent S)) where
  allowed o c :=
    match o with
    | .executeRoleStep _ _ _ observations => ∀ observation ∈ observations, Backed c.2 observation
    | _ => True
  effect := Prog.recorded eff

variable {eff : Prog.Eff Op Op.Ans S}

/-- What quiet operations keep: a property of the record that later events keep. -/
theorem keeps_of_quiet {I : List (OpEvent S) → Prop} (hI : ∀ record e, I record → I (e :: record))
    {α : Type} {m : Action α} (hm : Act.Uses (fun o => o.kind.quiet) m) :
    Act.Keeps (stepRules eff) (fun c => I c.2) m := by
  refine Act.keeps_of_uses hm (fun o c ho _ => ?_) fun o c x c' _ hc he => ?_
  · cases o with
    | executeRoleStep name req context observations =>
      exfalso
      cases hinput : req.input <;> simp [Op.kind, RoleInput.kind, hinput, OpKind.quiet] at ho
    | _ => trivial
  · rw [he.2]
    exact hI _ _ hc

/-- The observations so far are backed. -/
def AllBacked (observations : List RoleObservation) (c : S × List (OpEvent S)) : Prop :=
  ∀ observation ∈ observations, Backed c.2 observation

theorem keeps_allBacked (observations : List RoleObservation) {α : Type} {m : Action α}
    (hm : Act.Uses (fun o => o.kind.quiet) m) :
    Act.Keeps (stepRules eff) (AllBacked observations) m := by
  have hI : ∀ record (e : OpEvent S), (∀ observation ∈ observations, Backed record observation) →
      ∀ observation ∈ observations, Backed (e :: record) observation := by
    intro record e h observation hmem hok
    exact (h observation hmem hok).cons e
  exact keeps_of_quiet hI hm

theorem keeps_succeeded (observations : List RoleObservation) (toolName : String) {α : Type}
    {m : Action α} (hm : Act.Uses (fun o => o.kind.quiet) m) :
    Act.Keeps (stepRules eff) (fun c => AllBacked observations c ∧ Succeeded toolName c.2) m := by
  have hI : ∀ record (e : OpEvent S),
      (∀ observation ∈ observations, Backed record observation) ∧ Succeeded toolName record →
      (∀ observation ∈ observations, Backed (e :: record) observation) ∧
        Succeeded toolName (e :: record) := by
    intro record e h
    exact ⟨fun observation hmem hok => (h.1 observation hmem hok).cons e, h.2.cons e⟩
  exact keeps_of_quiet hI hm

theorem AllBacked.concat {observations : List RoleObservation} {observation : RoleObservation}
    {c : S × List (OpEvent S)} (h : AllBacked observations c) (hlast : Backed c.2 observation) :
    AllBacked (observations ++ [observation]) c :=
  List.forall_mem_append.mpr ⟨h, List.forall_mem_singleton.mpr hlast⟩

/-- A program under the signal of the lease does what it does, or is not started. -/
theorem runWithTimeout_spec {context : RoleExecutionContext} {observations : List RoleObservation}
    {α : Type} {m : Action α}
    {Q : α → S × List (OpEvent S) → Prop} {E : RuntimeError → S × List (OpEvent S) → Prop}
    (hm : Act.Triple (stepRules eff) (AllBacked observations) m Q E)
    (hE : ∀ error c, AllBacked observations c → E error c) :
    Act.Triple (stepRules eff) (AllBacked observations) (runWithTimeout context m) Q E := by
  have haborted : Act.Triple (stepRules eff) (AllBacked observations) (signalAborted context)
      (fun _ => AllBacked observations) E :=
    (keeps_allBacked observations (uses_signalAborted (fun _ h => h.quiet) context)).imp (fun _ h => h)
      (fun _ _ h => h) hE
  refine Act.Triple.bind haborted fun aborted => ?_
  split
  · exact Act.Triple.throw fun c hc => hE _ c hc
  · exact hm

/-- `executeTool` returns the output of a call that succeeded. -/
theorem executeTool_spec (observations : List RoleObservation) (call : ToolCallRequest)
    (context : RoleExecutionContext) :
    Act.Triple (stepRules eff) (AllBacked observations)
      (runWithTimeout context (Runtime.executeTool call context))
      (fun _ c => AllBacked observations c ∧ Succeeded call.toolName c.2)
      (fun _ => AllBacked observations) := by
  refine runWithTimeout_spec ?_ fun _ _ h => h
  refine Act.Triple.bind (keeps_allBacked observations (uses_request trivial)) fun _ => ?_
  intro c hc
  refine ⟨trivial, fun x c' he => ?_⟩
  have hall : AllBacked observations c' := by
    intro observation hmem hok
    rw [he.2]
    exact (hc observation hmem hok).cons _
  cases x with
  | error error => exact hall
  | ok output =>
    refine ⟨hall, call, context, output, c.1, rfl, ?_⟩
    rw [he.2]
    exact List.mem_cons_self

variable (rt : Runtime)

theorem does_runStep (input : RecordRunStepInput) :
    Act.Uses (fun o => o.kind.quiet) (RunStepRecorder.record rt.host input) :=
  does_record (P := OpKind.quiet) trivial trivial trivial rt.host input

/-- **A tool call** gives a backed observation. -/
theorem invokeToolRequest_spec (observations : List RoleObservation) (call : ToolCallRequest)
    (step : Nat) (roleName : String) (context : RoleExecutionContext) :
    Act.Triple (stepRules eff) (AllBacked observations)
      (rt.invokeToolRequest call step roleName context)
      (fun observation => AllBacked (observations ++ [observation]))
      (fun _ => AllBacked observations) := by
  have hquiet : ∀ {α : Type} {m : Action α}, Act.Uses (fun o => o.kind.quiet) m →
      Act.Keeps (stepRules eff) (AllBacked observations) m := keeps_allBacked observations
  have hsucceeded : ∀ {α : Type} {m : Action α}, Act.Uses (fun o => o.kind.quiet) m →
      Act.Triple (stepRules eff)
        (fun c => AllBacked observations c ∧ Succeeded call.toolName c.2) m
        (fun _ c => AllBacked observations c ∧ Succeeded call.toolName c.2)
        (fun _ => AllBacked observations) := fun hm =>
    (keeps_succeeded observations call.toolName hm).imp (fun _ h => h) (fun _ _ h => h)
      fun _ _ h => h.1
  refine Act.Triple.bind (hquiet (uses_request trivial)) fun createdAt => ?_
  refine Act.Triple.bind (hquiet (uses_request trivial)) fun startedAt => ?_
  refine Act.Triple.catching (E := fun _ => AllBacked observations) ?_ fun error => ?_
  · refine Act.Triple.bind (executeTool_spec observations call context) fun output => ?_
    refine Act.Triple.bind (hsucceeded (uses_request trivial)) fun finishedAt => ?_
    refine Act.Triple.bind (hsucceeded (does_runStep rt _)) fun _ => ?_
    refine Act.Triple.bind (hsucceeded (Act.uses_ofExcept _)) fun _ => ?_
    exact Act.Triple.pure fun c h => h.1.concat fun _ => h.2
  · refine Act.Triple.bind (hquiet (uses_request trivial)) fun finishedAt => ?_
    refine Act.Triple.bind (hquiet (does_runStep rt _)) fun _ => ?_
    exact Act.Triple.pure fun c h => h.concat fun hok => by cases hok

theorem observeTool_spec (observations : List RoleObservation) (call : ToolCallRequest)
    (step : Nat) (roleName : String) (context : RoleExecutionContext) :
    Act.Triple (stepRules eff) (AllBacked observations)
      (rt.observeTool call step roleName context)
      (fun observation => AllBacked (observations ++ [observation]))
      (fun _ => AllBacked observations) := by
  have hevent : ∀ type payload runId,
      Act.Uses (fun o => o.kind.quiet) (recordEvent type payload runId) := fun type payload runId =>
    does_recordEvent (P := OpKind.quiet) trivial trivial type payload runId
  have hobserved : ∀ (observation : RoleObservation) {α : Type} {m : Action α},
      Act.Uses (fun o => o.kind.quiet) m →
      Act.Triple (stepRules eff) (AllBacked (observations ++ [observation])) m
        (fun _ => AllBacked (observations ++ [observation])) (fun _ => AllBacked observations) :=
    fun observation α m hm => (keeps_allBacked _ hm).imp (fun _ h => h) (fun _ _ h => h)
      fun _ _ h => (List.forall_mem_append.mp h).1
  refine Act.Triple.bind (keeps_allBacked observations (hevent _ _ _)) fun _ => ?_
  refine Act.Triple.bind (invokeToolRequest_spec rt observations call step roleName context)
    fun observation => ?_
  refine Act.Triple.bind (hobserved observation (hevent _ _ _)) fun _ => ?_
  refine Act.Triple.bind (hobserved observation ?_) fun _ => Act.Triple.pure fun _ h => h
  split
  · exact hevent _ _ _
  · exact Act.uses_pure _

variable {name : AgentRoleName}

/-- **The action loop** gives its steps backed observations. -/
theorem roleLoop_spec (req : RoleRequest) (context : RoleExecutionContext) (roleStartedAt : Nat)
    (remaining step : Nat) (observations : List RoleObservation) :
    Act.Triple (stepRules eff) (AllBacked observations)
      (rt.roleLoop (fun observations => runWithTimeout context
        (request (.executeRoleStep name req context observations))) context roleStartedAt remaining
        step observations)
      (fun _ _ => True) (fun _ _ => True) := by
  have hquiet : ∀ observations {α : Type} {m : Action α}, Act.Uses (fun o => o.kind.quiet) m →
      Act.Triple (stepRules eff) (AllBacked observations) m (fun _ => AllBacked observations)
        (fun _ _ => True) := fun observations α m hm =>
    (keeps_allBacked observations hm).imp (fun _ h => h) (fun _ _ h => h) fun _ _ _ => trivial
  induction remaining generalizing step observations with
  | zero => exact Act.Triple.throw fun _ _ => trivial
  | succ remaining ih =>
    refine Act.Triple.bind (hquiet observations (uses_request trivial)) fun elapsedAt => ?_
    split
    · exact Act.Triple.throw fun _ _ => trivial
    refine Act.Triple.bind (hquiet observations (uses_signalAborted (fun _ h => h.quiet) context))
      fun aborted => ?_
    split
    · exact Act.Triple.throw fun _ _ => trivial
    refine Act.Triple.bind (Q := fun _ => AllBacked observations) ?_ fun result => ?_
    · -- the step is given the observations so far
      refine runWithTimeout_spec (fun c hc => ⟨hc, fun x c' he => ?_⟩) fun _ _ _ => trivial
      cases x with
      | error error => trivial
      | ok result =>
        intro observation hmem hok
        rw [he.2]
        exact (hc observation hmem hok).cons _
    · cases result with
      | finalOutput response => exact Act.Triple.pure fun _ _ => trivial
      | toolRequest call =>
        refine Act.Triple.bind ((observeTool_spec rt observations call step name.text context).imp
          (fun _ h => h) (fun _ _ h => h) fun _ _ _ => trivial) fun observation => ?_
        exact ih _ _

/-- **The steps of a role** are given backed observations. -/
theorem executeRole_backed (req : RoleRequest) (context : RoleExecutionContext) :
    Act.Keeps (stepRules eff) (fun _ : S × List (OpEvent S) => True)
      (rt.executeRole (rt.registeredRole name req context) req context) := by
  have hquiet : ∀ {α : Type} {m : Action α}, Act.Uses (fun o => o.kind.quiet) m →
      Act.Keeps (stepRules eff) (fun _ : S × List (OpEvent S) => True) m :=
    keeps_of_quiet (I := fun _ => True) fun _ _ h => h
  have hloop : Act.Keeps (stepRules eff) (fun _ : S × List (OpEvent S) => True)
      (rt.executeRoleWithLoop (rt.registeredRole name req context) context) := by
    unfold Runtime.executeRoleWithLoop Runtime.registeredRole
    by_cases hsteps : rt.hasSteps name = true
    · simp only [if_pos hsteps]
      refine Act.keeps_bind (hquiet (uses_request trivial)) fun roleStartedAt => ?_
      refine (roleLoop_spec rt req context roleStartedAt _ 1 []).imp (fun c _ => ?_)
        (fun _ _ _ => trivial) fun _ _ _ => trivial
      exact fun observation hmem => absurd hmem List.not_mem_nil
    · simp only [if_neg hsteps]
      have hcall : Act.Triple (stepRules eff) (AllBacked []) (request (.executeRole name req context))
          (fun _ _ => True) (fun _ _ => True) := by
        intro c _
        refine ⟨trivial, fun x c' _ => ?_⟩
        cases x <;> trivial
      refine (runWithTimeout_spec hcall fun _ _ _ => trivial).imp (fun c _ => ?_)
        (fun _ _ _ => trivial) fun _ _ _ => trivial
      exact fun observation hmem => absurd hmem List.not_mem_nil
  have hcheck : ∀ response, Act.Uses (fun o => o.kind.quiet)
      (Runtime.checkResponse (rt.registeredRole name req context) response) := fun response =>
    Act.uses_bind (uses_request trivial) fun _ => Act.uses_ofExcept _
  have haccept : ∀ model startedAt (response : RoleResponse name), Act.Uses (fun o => o.kind.quiet)
      (rt.acceptResponse req context model startedAt response) := fun _ _ _ =>
    Act.uses_bind (uses_request trivial) fun _ => Act.uses_bind (does_runStep rt _) fun _ =>
      uses_request trivial
  refine Act.keeps_bind (hquiet (uses_request trivial)) fun startedAt => ?_
  refine Act.keeps_bind (hquiet (uses_request trivial)) fun shared => ?_
  refine Act.keeps_bind (Act.keeps_ofExcept _) fun _ => ?_
  refine Act.keeps_bind (hquiet (uses_request trivial)) fun _ => ?_
  refine Act.keeps_bind hloop fun first => Act.keeps_catching ?_ fun _ => ?_
  · refine Act.keeps_bind (hquiet (hcheck first)) fun _ => ?_
    exact Act.keeps_bind (hquiet (haccept _ _ first)) fun _ => Act.keeps_pure _
  · refine Act.keeps_bind hloop fun second => ?_
    refine Act.keeps_bind (Act.keeps_catching (hquiet (hcheck second)) fun _ => ?_) fun _ => ?_
    · refine Act.keeps_bind (hquiet (uses_request trivial)) fun _ => ?_
      exact Act.keeps_bind (hquiet (does_runStep rt _)) fun _ => Act.keeps_throw _
    · exact Act.keeps_bind (hquiet (haccept _ _ second)) fun _ => Act.keeps_pure _

end Observations

/-! ### Runs of a role -/

section Runs

variable {σ : Type} (env : Surroundings σ) (rt : Runtime) {name : AgentRoleName}

/-- **A run of `RoleRunner.execute`**: the operations of the run, newest first. -/
def roleEvents (name : AgentRoleName) (req : RoleRequest)
    (context : RoleExecutionContext) (s : ToolState σ) : List (OpEvent (ToolState σ)) :=
  (Act.exec (Prog.recording env.carryOut)
    (rt.executeRole (rt.registeredRole name req context) req context) (s, [])).2.2

/-- **An execution without writes**: no call of the tool set writes, and no step is given an
observation of a file that was written. -/
structure WritesNothing (events : List (OpEvent (ToolState σ))) : Prop where
  no_write : ∀ e ∈ events, ∀ call context, e.op = .executeTool call context →
    ∀ w ∈ (env.runTool call context e.before).2.2, ¬ w.IsWrite
  refused : ∀ e ∈ events, ∀ role req context observations,
    e.op = .executeRoleStep role req context observations →
      ∀ observation ∈ observations, observation.toolName = "file_write" → observation.ok = false

/-- A tool call of a role is harmless. -/
def Harmless (call : ToolCallRequest) (context : RoleExecutionContext)
    (s : ToolState σ) : Prop :=
  LocalToolSet.Harmless env.system env.host env.policy call.unified context.toolContext s

/-- A refused `file_write` is not answered with an output. -/
theorem carryOut_refused {call : ToolCallRequest} {context : RoleExecutionContext}
    {s : ToolState σ} (h : Harmless env call context s) (hname : call.toolName = "file_write")
    (output : UnknownValue) : (env.carryOut (.executeTool call context) s).1 ≠ .ok output := by
  have hunified : call.unified.toolName = "file_write" := hname
  have hresult := ((LocalToolSet.run_fileWrite env.system env.host env.policy hunified
    context.toolContext s).2 (h.refused hname)).2
  have hanswer : (env.carryOut (.executeTool call context) s).1 =
      match env.late (env.runTool call context s).2.1.1 with
      | some error => .error error
      | none => env.settle (env.runTool call context s).1 := rfl
  rw [hanswer]
  cases env.late (env.runTool call context s).2.1.1 with
  | some error => exact fun hok => by cases hok
  | none =>
    intro hok
    cases hrun : (env.runTool call context s).1 with
    | error error =>
      rw [hrun] at hok
      cases hok
    | ok result =>
      rw [hrun] at hok
      obtain ⟨envelope, henvelope⟩ := hresult result hrun
      simp only [Surroundings.settle, henvelope] at hok
      cases hok

end Runs

end ToolCalls

end AiOrchestrator
