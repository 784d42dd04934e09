import AiOrchestrator.Execution.Selection

/-!
# Budget checks

A role is called after a passed check of the budgets: whenever a cycle has a role work, the totals that
it read last were below them, and roles have worked on nothing else since (`checked_runCycle`): a check
is good for one call of a role, with its steps and its second attempt. What these totals count is
another matter, as other cycles share the tracker.
-/

namespace AiOrchestrator

/-- What a cost tracker counts. -/
@[ext]
structure Usage where
  tokens : Nat
  taskTokens : Nat
  costUsdMicro : Nat
deriving DecidableEq

namespace Usage

def none : Usage := ⟨0, 0, 0⟩

def add (u v : Usage) : Usage :=
  ⟨u.tokens + v.tokens, u.taskTokens + v.taskTokens, u.costUsdMicro + v.costUsdMicro⟩

/-- The part of the task. -/
def ofTask (u : Usage) : Usage := ⟨0, u.taskTokens, 0⟩

/-- What is left when a new task begins. -/
def resetTask (u : Usage) : Usage := { u with taskTokens := 0 }

theorem add_eq_left_iff {u v : Usage} : u.add v = u ↔ v = none := by
  cases u
  cases v
  simp [add, none]

@[simp] theorem add_none (u : Usage) : u.add none = u := rfl

@[simp] theorem none_add (u : Usage) : none.add u = u := by
  cases u
  simp [add, none]

theorem add_comm (u v : Usage) : u.add v = v.add u := by
  simp only [add, Nat.add_comm]

theorem add_right_comm (u v w : Usage) : (u.add v).add w = (u.add w).add v := by
  simp only [add, Nat.add_right_comm]

/-- What a reset of the task removes is its part. -/
theorem resetTask_add_ofTask (u v : Usage) : u.resetTask.add (v.add u.ofTask) = u.add v := by
  ext
  · exact congrArg (u.tokens + ·) (Nat.add_zero v.tokens)
  · exact (Nat.zero_add _).trans (Nat.add_comm v.taskTokens u.taskTokens)
  · exact congrArg (u.costUsdMicro + ·) (Nat.add_zero v.costUsdMicro)

theorem resetTask_add (u v : Usage) : (u.add v).resetTask = u.resetTask.add v.resetTask := rfl

end Usage

/-- The totals that are compared with the budgets. -/
def RoleRunCostTracker.totals (cost : RoleRunCostTracker) : Usage :=
  ⟨cost.estimatedTokensRun, cost.estimatedTokensTask, cost.estimatedCostUsdMicro⟩

/-- **Below the budgets**, as far as there are any. -/
structure Runtime.WithinBudgets (rt : Runtime) (usage : Usage) : Prop where
  task : Runtime.exhausted rt.config.tokenBudgetPerTask usage.taskTokens = false
  run : Runtime.exhausted rt.config.tokenBudgetPerRun usage.tokens = false
  cost : Runtime.exhausted rt.config.maxRunCostUsdMicro usage.costUsdMicro = false

theorem Runtime.enforceBudgets_eq_ok_iff {rt : Runtime} {cost : RoleRunCostTracker}
    {model role : String} :
    rt.enforceBudgets cost model role = .ok () ↔ rt.WithinBudgets cost.totals := by
  unfold Runtime.enforceBudgets
  split_ifs with htask hrun hcost
  · exact iff_of_false (by simp) fun h => absurd (h.task.symm.trans htask) (by decide)
  · exact iff_of_false (by simp) fun h => absurd (h.run.symm.trans hrun) (by decide)
  · exact iff_of_false (by simp) fun h => absurd (h.cost.symm.trans hcost) (by decide)
  · exact iff_of_true rfl
      ⟨eq_false_of_ne_true htask, eq_false_of_ne_true hrun, eq_false_of_ne_true hcost⟩

/-- What a role works on: a request, or, where it is the task manager of the program, the state. -/
inductive RoleWork
  | request (req : RoleRequest)
  | selection

/-- The work that an operation has a role do. -/
def Op.work : Op → Option RoleWork
  | .executeRole _ req _ | .executeRoleStep _ req _ _ => some (.request req)
  | .selectionState => some .selection
  | _ => none

theorem Op.work_eq_none {o : Op} (hrole : o.kind ≠ .role) (hexecute : o.kind ≠ .execute) :
    o.work = none := by
  cases o with
  | executeRole name req context | executeRoleStep name req context observations =>
    cases hinput : req.input <;> simp [Op.kind, RoleInput.kind, hinput] at hrole hexecute
  | selectionState => exact absurd rfl hrole
  | _ => rfl

theorem Op.work_of_plain {o : Op} (h : o.kind.plain) : o.work = none := by
  refine Op.work_eq_none ?_ ?_ <;> intro hkind <;> rw [hkind] at h <;> exact h

/-- The latest check of a cycle: the totals that it read, and what a role has worked on since. -/
structure LatestCheck where
  cost : RoleRunCostTracker
  work : Option RoleWork

namespace LatestCheck

/-- The check after an operation. -/
def after (o : Op) (check : LatestCheck) : LatestCheck := { check with work := o.work.or check.work }

/-- **A check is good for one work**: nothing else has been worked on since. -/
def GoodFor (check : LatestCheck) (work : RoleWork) : Prop :=
  ∀ earlier, check.work = some earlier → earlier = work

/-- A new check is good for every work. -/
theorem goodFor_new (cost : RoleRunCostTracker) (work : RoleWork) : GoodFor ⟨cost, none⟩ work := by
  intro earlier h
  cases h

end LatestCheck

/-- What an operation does to the latest check. -/
def Op.checked : Prog.Eff Op Op.Ans (Option LatestCheck)
  | .readCost, _, answer, latest =>
    ∃ cost : RoleRunCostTracker, answer = .ok cost ∧ latest = some ⟨cost, none⟩
  | o, latest, _, latest' => latest' = latest.map (LatestCheck.after o)

theorem Op.checked_iff_of_ne {o : Op} (ho : o ≠ .readCost) {latest latest' : Option LatestCheck}
    {answer : o.Ans} :
    o.checked latest answer latest' ↔ latest' = latest.map (LatestCheck.after o) := by
  cases o with
  | readCost => exact absurd rfl ho
  | _ => exact Iff.rfl

/-- The operation reads no totals, and has no role do other work. -/
def Op.WorksOnly (work : RoleWork) (o : Op) : Prop :=
  o ≠ .readCost ∧ ∀ other, o.work = some other → other = work

theorem Op.worksOnly_of_looping {work : RoleWork} {o : Op} (h : o.kind.looping) :
    o.WorksOnly work := by
  have hnone : o.work = none := by
    refine Op.work_eq_none ?_ ?_ <;> intro hkind <;> rw [hkind] at h <;> exact h
  refine ⟨?_, fun other hother => ?_⟩
  · rintro rfl
    exact h
  · cases hnone.symm.trans hother

section

variable {rt : Runtime}

/-- The totals at the latest check were below the budgets, and it is good for the work. -/
def PassedCheck (rt : Runtime) (work : RoleWork) (latest : Option LatestCheck) : Prop :=
  ∃ check, latest = some check ∧ rt.WithinBudgets check.cost.totals ∧ check.GoodFor work

/-- The rules of the checks: a role works after a passed check for this work. -/
def checkRules (rt : Runtime) : Prog.Rules Op Op.Ans (Option LatestCheck) where
  allowed o latest := ∀ work, o.work = some work → PassedCheck rt work latest
  effect := Op.checked

/-- Whether a check was passed does not matter. -/
abbrev Checked (rt : Runtime) {α : Type} (m : Action α) : Prop :=
  Act.Keeps (checkRules rt) (fun _ => True) m

variable {α : Type} {name : AgentRoleName}

theorem checked_of_uses {m : Action α} (hm : Act.Uses (fun o => o.work = none) m) : Checked rt m := by
  refine Act.keeps_of_uses hm (fun o _ ho _ work hwork => ?_) fun _ _ _ _ _ _ _ => trivial
  cases ho.symm.trans hwork

theorem checked_of_does {m : Action α} (hm : Does OpKind.plain m) : Checked rt m :=
  checked_of_uses (uses_of_does hm fun _ h => Op.work_of_plain h)

theorem checked_request {o : Op} (h : o.kind.plain) : Checked rt (request o) :=
  checked_of_does (does_request h)

/-- What is done for one work keeps a check passed that is good for it. -/
theorem PassedCheck.step {work : RoleWork} {o : Op} (ho : o.WorksOnly work)
    {latest latest' : Option LatestCheck} {answer : o.Ans} (h : PassedCheck rt work latest)
    (he : o.checked latest answer latest') : PassedCheck rt work latest' := by
  obtain ⟨check, rfl, hwithin, hgood⟩ := h
  rw [Op.checked_iff_of_ne ho.1] at he
  refine ⟨check.after o, he, hwithin, fun earlier hearlier => ?_⟩
  cases hwork : o.work with
  | none =>
    rw [LatestCheck.after, hwork] at hearlier
    exact hgood earlier hearlier
  | some other =>
    rw [LatestCheck.after, hwork] at hearlier
    exact ho.2 earlier (hwork.trans hearlier)

theorem passed_of_uses {work : RoleWork} {m : Action α} (hm : Act.Uses (Op.WorksOnly work) m) :
    Act.Triple (checkRules rt) (PassedCheck rt work) m (fun _ _ => True) (fun _ _ => True) := by
  refine (Act.keeps_of_uses (I := PassedCheck rt work) hm (fun o _ ho hpassed other hother => ?_)
    fun o latest x latest' ho hpassed he => hpassed.step ho he).imp (fun _ h => h)
      (fun _ _ _ => trivial) fun _ _ _ => trivial
  rw [ho.2 other hother]
  exact hpassed

/-- **Calling a role** begins with a check, which is good for the work on this call. -/
theorem checked_executeRole {role : AgentRole name} {work : RoleWork}
    (hrole : RoleUses (Op.WorksOnly work) role) (req : RoleRequest)
    (context : RoleExecutionContext) : Checked rt (rt.executeRole role req context) := by
  have hlooping : ∀ o : Op, o.kind.looping → o.WorksOnly work := fun _ h => Op.worksOnly_of_looping h
  refine Act.keeps_bind (checked_request trivial) fun startedAt => ?_
  refine Act.Triple.bind (Q := fun cost latest => latest = some ⟨cost, none⟩) ?_ fun cost => ?_
  · have hallowed : ∀ latest, True → (checkRules rt).allowed .readCost latest := by
      intro _ _ work hwork
      cases hwork
    refine Act.Triple.ask hallowed (fun latest read latest' _ he => ?_) fun _ _ _ _ _ => trivial
    obtain ⟨cost, hread, hlatest⟩ := he
    cases hread
    exact hlatest
  refine Act.Triple.bind (Q := fun _ => PassedCheck rt work) ?_ fun _ => ?_
  · refine (Act.Triple.ofExcept _).imp (fun _ h => h) (fun _ latest h => ?_) fun _ _ _ => trivial
    exact ⟨_, h.1, Runtime.enforceBudgets_eq_ok_iff.mp h.2, LatestCheck.goodFor_new cost work⟩
  -- from here on nothing is read of the totals
  refine passed_of_uses ?_
  refine Act.uses_bind (uses_looping hlooping trivial) fun _ => ?_
  exact Act.uses_bind (uses_executeRoleWithLoop rt hlooping hrole context) fun firstAttempt =>
    uses_attempts rt hlooping hrole req context _ _ firstAttempt

/-- A registered role works on its request, and has no other one work. -/
theorem worksOnly_registeredRole (req : RoleRequest) (context : RoleExecutionContext) :
    RoleUses (Op.WorksOnly (.request req)) (rt.registeredRole name req context) := by
  have hsame : ∀ other, some (RoleWork.request req) = some other → other = .request req :=
    fun _ h => (Option.some.inj h).symm
  exact roleUses_registered rt (fun _ h => Op.worksOnly_of_looping h) ⟨nofun, hsame⟩
    fun _ => ⟨nofun, hsame⟩

theorem worksOnly_taskManagerRole (host : Host) :
    RoleUses (Op.WorksOnly .selection) (taskManagerRole host) :=
  roleUses_taskManagerRole ⟨nofun, fun _ h => (Option.some.inj h).symm⟩ host

theorem checked_callRole (run : Runtime.TaskRun) (objective : String) (input : RoleInput)
    (acceptanceCriteria : List String) :
    Checked rt (rt.callRole run name objective input acceptanceCriteria) :=
  Act.keeps_bind (checked_request trivial) fun _ =>
    checked_executeRole (worksOnly_registeredRole _ _) _ _

/-! ### The stages of a run -/

section Stages

variable {run : Runtime.TaskRun}

theorem checked_recordEvent (eventType : DomainEventType) (payload : List (String × Json Nat))
    (runId : String) : Checked rt (recordEvent eventType payload runId) :=
  checked_of_does (does_recordEvent trivial trivial _ _ _)

theorem checked_optimizePrompt : Checked rt (rt.optimizePrompt run) := by
  refine Act.keeps_bind (checked_request trivial) fun _ => ?_
  refine Act.keeps_bind (checked_callRole run _ _ _) fun _ => ?_
  refine Act.keeps_bind (checked_recordEvent _ _ _) fun _ => ?_
  exact Act.keeps_bind (checked_of_does (does_recordNew trivial trivial trivial _ _ _)) fun _ =>
    Act.keeps_pure _

theorem checked_executeTask (prompt : OptimizedPrompt) : Checked rt (rt.executeTask run prompt) := by
  refine Act.keeps_bind (checked_callRole run _ _ _) fun _ => ?_
  refine Act.keeps_bind (checked_request trivial) fun _ => ?_
  refine Act.keeps_bind (Act.keeps_bind
    (checked_of_does (does_listWorkspaceChangedFiles trivial _)) fun _ => Act.keeps_ofExcept _)
    fun _ => ?_
  exact Act.keeps_bind (checked_recordEvent _ _ _) fun _ => Act.keeps_pure _

theorem checked_reviewTask (result : Json Nat) : Checked rt (rt.reviewTask run result) := by
  refine Act.keeps_bind (checked_callRole run _ _ _) fun _ => ?_
  dsimp only
  split
  · exact Act.keeps_bind (checked_recordEvent _ _ _) fun _ => Act.keeps_pure _
  · exact Act.keeps_bind (checked_recordEvent _ _ _) fun _ => Act.keeps_pure _

theorem checked_testTask (result : Json Nat) : Checked rt (rt.testTask run result) := by
  have hstages : ∀ stages, Checked rt
      (Runtime.persistQualityStageArtifacts run.runId run.handle.task.id stages) := fun stages =>
    checked_of_does (does_persistQualityStageArtifacts trivial trivial trivial _ _ stages)
  refine Act.keeps_bind (checked_callRole run _ _ _) fun _ => ?_
  dsimp only
  split
  · refine Act.keeps_bind (checked_request trivial) fun _ => ?_
    exact Act.keeps_bind (hstages _) fun _ => Act.keeps_bind (checked_recordEvent _ _ _) fun _ =>
      Act.keeps_pure _
  · refine Act.keeps_bind (checked_request trivial) fun _ => ?_
    refine Act.keeps_bind (Act.keeps_ofExcept _) fun _ => ?_
    exact Act.keeps_bind (hstages _) fun _ => Act.keeps_bind (checked_recordEvent _ _ _) fun _ =>
      Act.keeps_pure _

/-- The failure handler and the completion call no role. -/
theorem checked_handleFailure (role : RuntimeFailureRole) (reason : String) :
    Checked rt (rt.handleFailure run.handle role reason run.runId) := by
  refine checked_of_uses ((uses_handleFailure rt run.handle role reason run.runId).mono
    fun o ho => ?_)
  cases ho with
  | record h => refine Op.work_eq_none ?_ ?_ <;> rcases h with h | h | h | h <;> simp [h]
  | count | noteFailure | flush | split | block | save => rfl

theorem checked_completeTask (summary : String) : Checked rt (rt.completeTask run summary) :=
  checked_of_uses (uses_completeTask rt run (fun _ h => Op.work_of_plain h) rfl
    (fun _ => rfl) summary)

theorem checked_runTaskBody : Checked rt (rt.runTaskBody run) := by
  refine Act.keeps_bind (checked_request trivial) fun _ => ?_
  refine Act.keeps_bind (checked_recordEvent _ _ _) fun _ => ?_
  refine Act.keeps_bind (checked_of_does (does_persistAndRequire trivial trivial trivial _))
    fun _ => ?_
  refine Act.keeps_bind checked_optimizePrompt fun prompt => ?_
  refine Act.keeps_bind (checked_executeTask prompt) fun response => ?_
  refine Act.keeps_bind (m := if requiresReview run.handle.task then
    rt.reviewTask run response.payload else pure true) ?_ fun approved => ?_
  · split
    · exact checked_reviewTask _
    · exact Act.keeps_pure _
  split
  · exact Act.keeps_bind (checked_handleFailure _ _) fun _ => Act.keeps_pure _
  refine Act.keeps_bind (m := if requiresTesting run.handle.task then
    rt.testTask run response.payload else pure true) ?_ fun passed => ?_
  · split
    · exact checked_testTask _
    · exact Act.keeps_pure _
  split
  · exact Act.keeps_bind (checked_handleFailure _ _) fun _ => Act.keeps_pure _
  · exact Act.keeps_bind (Act.keeps_ofExcept _) fun _ => checked_completeTask _

theorem checked_runTask : Checked rt (rt.runTask run) := by
  refine Act.keeps_bind (checked_request trivial) fun _ => ?_
  refine Act.keeps_bind (checked_request trivial) fun _ => ?_
  refine Act.keeps_bind (checked_request trivial) fun _ => ?_
  refine Act.keeps_bind (Act.keeps_finallyDo checked_runTaskBody fun _ => ?_) fun _ =>
    Act.keeps_pure _
  exact Act.keeps_bind
    (checked_of_does (does_recordRunCostSummary run trivial trivial trivial _))
    fun _ => checked_request trivial

end Stages

/-! ### Cycles -/

theorem checked_runInWorkspace (handle : TaskHandle) (runId : String) :
    Checked rt (rt.runInWorkspace handle runId) := by
  have hrecord : ∀ type title metadata, Checked rt (Runtime.recordNew type title metadata) :=
    fun _ _ _ => checked_of_does (does_recordNew trivial trivial trivial _ _ _)
  refine Act.keeps_bind (checked_request trivial) fun _ => ?_
  refine Act.keeps_bind (checked_of_does (does_allocateWorkspace rt _ _ _)) fun workspace => ?_
  refine Act.keeps_bind (hrecord _ _ _) fun _ => Act.keeps_bind (hrecord _ _ _) fun _ => ?_
  refine Act.keeps_finallyDo (Act.keeps_catching checked_runTask fun _ => ?_) fun _ => ?_
  · exact Act.keeps_bind (Act.keeps_ignoring (checked_of_does (does_rollbackWorkspace workspace)))
      fun _ => Act.keeps_throw _
  · exact Act.keeps_ignoring (checked_of_does (does_cleanupWorkspace rt workspace))

theorem checked_selectTask (runId : String) : Checked rt (rt.selectTask runId) := by
  refine Act.keeps_bind (checked_request trivial) fun _ => ?_
  refine Act.keeps_bind ?_ fun _ => ?_
  · unfold Runtime.taskManager
    split
    · exact checked_executeRole (worksOnly_registeredRole _ _) _ _
    · exact checked_executeRole (worksOnly_taskManagerRole _) _ _
  · exact Act.keeps_bind (checked_of_uses (uses_request rfl)) fun _ => Act.keeps_pure _

theorem checked_runUnderLease (runId : String) (options : Runtime.RunCycleOptions) :
    Checked rt (rt.runUnderLease runId options) := by
  unfold Runtime.runUnderLease
  refine Act.keeps_bind (checked_request trivial) fun _ => ?_
  refine Act.keeps_bind (checked_request trivial) fun state => ?_
  generalize assertProjectState state = valid
  generalize shouldStopRun state rt.config.workflow = stop
  refine Act.keeps_bind (Act.keeps_ofExcept valid) fun _ => ?_
  cases stop with
  | some reason =>
    exact Act.keeps_bind (checked_request trivial) fun _ => Act.keeps_pure _
  | none =>
    dsimp only
    generalize presentText options.forcedTaskId = forced
    refine Act.keeps_bind ?_ fun choice => ?_
    · cases forced with
      | some taskId => exact Act.keeps_pure _
      | none => exact checked_selectTask runId
    · cases choice with
      | none => exact Act.keeps_pure _
      | some handle => exact checked_runInWorkspace handle runId

/-- **In a cycle roles work after passed checks.** -/
theorem checked_runCycle (options : Runtime.RunCycleOptions) : Checked rt (rt.runCycle options) := by
  refine Act.keeps_bind (checked_request trivial) fun _ => ?_
  refine Act.keeps_bind (checked_request trivial) fun runId => ?_
  refine Act.keeps_bind (checked_of_uses (uses_request rfl)) fun _ => ?_
  refine Act.keeps_bind (checked_of_uses (uses_request rfl)) fun acquired => ?_
  split
  · exact Act.keeps_pure _
  · exact Act.keeps_finallyDo (checked_runUnderLease runId options) fun _ =>
      Act.keeps_ignoring (checked_request trivial)

end

end AiOrchestrator
