import AiOrchestrator.Execution.RoleAttempts
import AiOrchestrator.Results.Tools
import Mathlib.Data.List.TakeWhile

/-!
# Which attempts a role gets

One `catch` block of `RoleRunner.execute` covers the checks of the first attempt, its record and its
telemetry. It executes the role again without a check of the budgets and without a charge, and it
does so for an attempt that has passed the checks as well, if what comes after them fails.

`attempts_correct_iff` gives the condition of each part: the record of a run is read from the newest
call to the oldest.
-/

namespace AiOrchestrator

namespace RoleRunner

section Attempts

variable {name : AgentRoleName} {S : Type}

/-- A call of `execute`, with its answer. -/
abbrev AttemptEvent (name : AgentRoleName) (S : Type) :=
  Prog.Event (AttemptCall name) AttemptCall.Ans S

/-- The role is executed. -/
def AttemptCall.executes : AttemptCall name → Bool
  | executeRoleWithLoop => true
  | dateNow | incrementCounter _ | readCost | recordTokenUsage .. | validateRole _
  | recordRunStep _ => false

/-- The response that an execution of the role has given. -/
def AttemptEvent.response? : AttemptEvent name S → Option (RoleResponse name)
  | ⟨.executeRoleWithLoop, .ok response, _⟩ => some response
  | _ => none

/-- The role's own check refuses the response. -/
def AttemptEvent.Refuses (response : RoleResponse name) : AttemptEvent name S → Prop
  | ⟨.validateRole checked, .error _, _⟩ => checked = response
  | _ => False

/-- A `role.execute` step is recorded as succeeded. -/
def AttemptEvent.recordsSuccess : AttemptEvent name S → Bool
  | ⟨.recordRunStep step, .ok _, _⟩ =>
    decide (step.tool = some "role.execute" ∧ step.status = .succeeded)
  | _ => false

section Spec

variable (rt : Runtime) (req : RoleRequest)

/-- The budgets are checked, and there is room in them. -/
def AttemptEvent.checksBudget : AttemptEvent name S → Bool
  | ⟨.readCost, cost, _⟩ => (rt.enforceBudgets cost (model rt req) req.role.text).isOk
  | _ => false

/-- The request is charged to the tracker. -/
def AttemptCall.chargesRequest : AttemptCall name → Bool
  | .recordTokenUsage .roleRequestEstimate tokens _ =>
    decide (tokens = estimateTokens (rt.host.stringify req.input.toJson))
  | _ => false

/-- **A second execution follows an invalid output**: the role's own check has refused the output of
the execution before it, or the registry's check does. -/
def RetriesOnInvalid (record : List (AttemptEvent name S)) : Prop :=
  ∀ later (second : AttemptEvent name S) between (first : AttemptEvent name S) earlier,
    record = later ++ second :: (between ++ first :: earlier) →
    second.op.executes = true → first.op.executes = true →
      ∃ response, first.response? = some response ∧
        ((∃ e ∈ between, e.Refuses response) ∨ Runtime.validateRoleResult response ≠ .ok ())

/-- **At most one success is recorded.** -/
def RecordsOnce (record : List (AttemptEvent name S)) : Prop :=
  record.countP AttemptEvent.recordsSuccess ≤ 1

/-- **Every execution is checked and charged**: between the execution before it and this one the
budgets are checked, and the request is charged once. -/
def ChargesEach (record : List (AttemptEvent name S)) : Prop :=
  ∀ later (e : AttemptEvent name S) earlier, record = later ++ e :: earlier → e.op.executes = true →
    let since := earlier.takeWhile (!·.op.executes)
    (∃ c ∈ since, c.checksBudget rt req = true) ∧
      since.countP (·.op.chargesRequest rt req) = 1

/-- **The attempts of a role are as they should be.** -/
structure AttemptsCorrect (record : List (AttemptEvent name S)) : Prop where
  retriesOnInvalid : RetriesOnInvalid record
  recordsOnce : RecordsOnce record
  chargesEach : ChargesEach rt req record

end Spec

/-! ### Runs -/

section Runs

variable (handle : (o : AttemptCall name) → S → o.Ans × S)
variable (rt : Runtime) (req : RoleRequest) (context : RoleExecutionContext)

/-- The calls of `execute`, newest first. -/
def calls (s : S) : List (AttemptEvent name S) :=
  (Act.exec (Prog.recording handle) (execute rt req context) (s, [])).2.2

/-- The attempt passes the checks. -/
def Passes (s : S) (attempt : RoleResponse name) : Prop :=
  (Act.exec handle (checkAttempt attempt) s).1 = .ok ()

/-- The attempt passes the checks, and its step is recorded. -/
def Recorded (s : S) (startedAt : Nat) (attempt : RoleResponse name) : Prop :=
  (Act.exec handle
    (do checkAttempt attempt; recordAttempt req context startedAt attempt) s).1 = .ok ()

instance (s : S) (startedAt : Nat) (attempt : RoleResponse name) :
    Decidable (Recorded handle req context s startedAt attempt) :=
  inferInstanceAs (Decidable (_ = _))

/-- **The role is executed again**: the first attempt comes back, after which the state is `s₁`, and
something in the `try` block fails, after which it is `s₂`. -/
structure Retried (s : S) (startedAt : Nat) (first : RoleResponse name) (s₁ s₂ : S) : Prop where
  attempted : Act.exec handle (firstAttempt rt req context) s = (.ok (startedAt, first), s₁)
  failed : ∃ error,
    Act.exec handle (settleFirst rt req context startedAt first) s₁ = (.error error, s₂)

variable {handle rt req context}

/-! ### Parts of a run -/

/-- A call of the tracker or of telemetry that counts. -/
def AttemptCall.Counts : AttemptCall name → Prop
  | incrementCounter _ | recordTokenUsage .. => True
  | executeRoleWithLoop | dateNow | readCost | validateRole _ | recordRunStep _ => False

/-- A call that follows the check of an attempt. -/
def AttemptCall.Settles : AttemptCall name → Prop
  | incrementCounter _ | recordTokenUsage .. | dateNow | recordRunStep _ => True
  | executeRoleWithLoop | readCost | validateRole _ => False

theorem executes_of_settles {o : AttemptCall name} (h : o.Settles) : o.executes = false := by
  cases o <;> first | rfl | exact h.elim

theorem not_refuses_of_settles {e : AttemptEvent name S} (h : e.op.Settles)
    (response : RoleResponse name) : ¬ e.Refuses response := by
  obtain ⟨o, answer, s⟩ := e
  cases o <;> first | exact id | exact h.elim

theorem checksBudget_of_settles {e : AttemptEvent name S} (h : e.op.Settles) :
    e.checksBudget rt req = false := by
  obtain ⟨o, answer, s⟩ := e
  cases o <;> first | rfl | exact h.elim

/-- Neither an execution of the role nor the record of a step. -/
def AttemptCall.IsPlain : AttemptCall name → Prop
  | executeRoleWithLoop | recordRunStep _ => False
  | dateNow | incrementCounter _ | readCost | recordTokenUsage .. | validateRole _ => True

theorem executes_of_isPlain {o : AttemptCall name} (h : o.IsPlain) : o.executes = false := by
  cases o <;> first | rfl | exact h.elim

theorem recordsSuccess_of_isPlain {e : AttemptEvent name S} (h : e.op.IsPlain) :
    e.recordsSuccess = false := by
  obtain ⟨o, answer, s⟩ := e
  cases o <;> first | rfl | exact h.elim

theorem recordsSuccess_of_executes {e : AttemptEvent name S} (h : e.op.executes = true) :
    e.recordsSuccess = false := by
  obtain ⟨o, answer, s⟩ := e
  cases o <;> first | rfl | cases h

theorem uses_incrementCounter (counter : TelemetryCounter) :
    Act.Uses AttemptCall.Counts (incrementCounter counter : Attempting name Unit) :=
  Act.uses_bind (Act.uses_perform (o := AttemptCall.incrementCounter counter) trivial)
    fun answer => Act.uses_ofExcept answer

theorem uses_recordTokenAndCostUsage (source : TokenSource) (tokens : Nat) :
    Act.Uses AttemptCall.Counts
      (recordTokenAndCostUsage rt req context source tokens : Attempting name Unit) := by
  unfold recordTokenAndCostUsage
  refine Act.uses_bind (Act.uses_perform (o := AttemptCall.recordTokenUsage _ _ _) trivial) fun _ => ?_
  refine Act.uses_bind (uses_incrementCounter _) fun _ => ?_
  exact uses_incrementCounter _

theorem uses_prepare :
    Act.Uses AttemptCall.IsPlain (prepare rt req context : Attempting name Nat) := by
  have hplain : ∀ o : AttemptCall name, o.Counts → o.IsPlain := by
    intro o ho
    cases o <;> trivial
  refine Act.uses_bind (Act.uses_perform (o := AttemptCall.dateNow) trivial) fun startedAt => ?_
  refine Act.uses_bind ?_ fun _ => Act.uses_pure startedAt
  refine Act.uses_bind ((uses_incrementCounter _).mono hplain) fun _ => ?_
  refine Act.uses_bind (Act.uses_perform (o := AttemptCall.readCost) trivial) fun cost => ?_
  refine Act.uses_bind (Act.uses_ofExcept _) fun _ => ?_
  exact (uses_recordTokenAndCostUsage _ _).mono hplain

theorem exec_executeRoleWithLoop (s : S) :
    Act.exec handle executeRoleWithLoop s =
      ((handle .executeRoleWithLoop s).1, (handle .executeRoleWithLoop s).2) := rfl

/-- The call of a counter that goes well. -/
theorem incrementCounter_of_ok {counter : TelemetryCounter}
    {c c' : S × List (AttemptEvent name S)}
    (h : Act.exec (Prog.recording handle) (incrementCounter counter) c = (.ok (), c')) :
    c'.2 = ⟨.incrementCounter counter, .ok (), c.1⟩ :: c.2 := by
  have hexec : ((handle (.incrementCounter counter) c.1).1,
      (handle (.incrementCounter counter) c.1).2,
      (⟨.incrementCounter counter, (handle (.incrementCounter counter) c.1).1, c.1⟩ :
        AttemptEvent name S) :: c.2) = (Except.ok (), c') := h
  obtain ⟨hanswer, rfl⟩ := Prod.mk.inj hexec
  rw [hanswer]

/-- **Before the first execution** the budgets are checked, and the request is charged once. -/
theorem prepare_of_ok {s : S} {startedAt : Nat} {c : S × List (AttemptEvent name S)}
    (h : Act.exec (Prog.recording handle) (prepare rt req context) (s, []) = (.ok startedAt, c)) :
    (∃ e ∈ c.2, e.checksBudget rt req = true) ∧
      c.2.countP (·.op.chargesRequest rt req) = 1 := by
  obtain ⟨_, c₁, hnow, hrest⟩ := Act.exec_bind_eq_ok h
  obtain ⟨_, c₂, hcharge, hreturn⟩ := Act.exec_bind_eq_ok hrest
  obtain ⟨_, c₃, hmetric, hbudgets⟩ := Act.exec_bind_eq_ok hcharge
  obtain ⟨cost, c₄, hcost, hchecked⟩ := Act.exec_bind_eq_ok hbudgets
  obtain ⟨_, c₅, hbudget, husages⟩ := Act.exec_bind_eq_ok hchecked
  obtain ⟨_, c₆, husage, hcounters⟩ := Act.exec_bind_eq_ok husages
  obtain ⟨_, c₇, htokens, hmicro⟩ := Act.exec_bind_eq_ok hcounters
  have hroom : rt.enforceBudgets cost (model rt req) req.role.text = .ok () :=
    (Prod.ext_iff.mp hbudget).1
  -- what each call adds to the record
  have h₁ : c₁.2 = [⟨.dateNow, (handle .dateNow s).1, s⟩] := by
    cases hnow
    rfl
  have h₃ := incrementCounter_of_ok hmetric
  have h₄ : c₄.2 = ⟨.readCost, cost, c₃.1⟩ :: c₃.2 := by
    cases hcost
    rfl
  have h₅ : c₅ = c₄ := (Prod.ext_iff.mp hbudget).2.symm
  obtain ⟨micro, h₆⟩ : ∃ micro, c₆.2 = ⟨.recordTokenUsage .roleRequestEstimate
      (estimateTokens (rt.host.stringify req.input.toJson)) micro, (), c₅.1⟩ :: c₅.2 := by
    cases husage
    exact ⟨_, rfl⟩
  have h₇ := incrementCounter_of_ok htokens
  have h₂ := incrementCounter_of_ok hmicro
  cases hreturn
  rw [h₂, h₇, h₆, h₅, h₄, h₃, h₁]
  constructor
  · refine ⟨⟨.readCost, cost, c₃.1⟩, by simp, ?_⟩
    change (rt.enforceBudgets cost (model rt req) req.role.text).isOk = true
    rw [hroom]
    rfl
  · simp [AttemptCall.chargesRequest]

/-! ### Settling an attempt -/

theorem passes_iff {s : S} {attempt : RoleResponse name} :
    Passes handle s attempt ↔
      (handle (.validateRole attempt) s).1 = .ok () ∧
        Runtime.validateRoleResult attempt = .ok () := by
  unfold Passes checkAttempt validateRole
  rw [Act.exec_bind, Act.exec_bind, Act.exec_perform]
  dsimp only [Act.exec_ofExcept]
  rcases (handle (.validateRole attempt) s).1 with error | ⟨⟩ <;> simp

/-- The call of the role's own check. -/
def checkCall (handle : (o : AttemptCall name) → S → o.Ans × S) (s : S)
    (attempt : RoleResponse name) : AttemptEvent name S :=
  ⟨.validateRole attempt, (handle (.validateRole attempt) s).1, s⟩

theorem refuses_checkCall (s : S) (attempt : RoleResponse name) :
    (checkCall handle s attempt).Refuses attempt ↔ (handle (.validateRole attempt) s).1 ≠ .ok () := by
  unfold checkCall
  rcases (handle (.validateRole attempt) s).1 with error | ⟨⟩
  · exact iff_of_true rfl (by simp)
  · exact iff_of_false id (by simp)

/-- The checks of an attempt leave one call in the record. -/
theorem checkAttempt_recording (attempt : RoleResponse name) (c : S × List (AttemptEvent name S)) :
    Act.exec (Prog.recording handle) (checkAttempt attempt) c =
      ((Act.exec handle (checkAttempt attempt) c.1).1,
        (Act.exec handle (checkAttempt attempt) c.1).2,
        checkCall handle c.1 attempt :: c.2) := by
  unfold checkAttempt validateRole checkCall
  simp only [Act.exec_bind, Act.exec_perform, Act.exec_ofExcept, Prog.recording]
  rcases (handle (.validateRole attempt) c.1).1 with error | ⟨⟩ <;> rfl

variable (handle req context) in
/-- The record of an attempt leaves two calls, of which one is a success if it goes well. -/
theorem recordAttempt_recording (startedAt : Nat) (attempt : RoleResponse name)
    (c : S × List (AttemptEvent name S)) :
    ∃ done, Act.exec (Prog.recording handle) (recordAttempt req context startedAt attempt) c =
        ((Act.exec handle (recordAttempt req context startedAt attempt) c.1).1,
          (Act.exec handle (recordAttempt req context startedAt attempt) c.1).2, done ++ c.2) ∧
      (∀ e ∈ done, e.op.Settles) ∧
      done.countP AttemptEvent.recordsSuccess =
        if (Act.exec handle (recordAttempt req context startedAt attempt) c.1).1 = .ok () then 1
        else 0 := by
  refine ⟨[⟨.recordRunStep _, _, _⟩, ⟨.dateNow, _, _⟩], rfl, ?_, ?_⟩
  · intro e he
    rcases List.mem_cons.mp he with rfl | he
    · trivial
    · rw [List.mem_singleton.mp he]
      trivial
  · change List.countP _ [(⟨.recordRunStep _, (Act.exec handle
      (recordAttempt req context startedAt attempt) c.1).1, _⟩ : AttemptEvent name S), _] = _
    rcases (Act.exec handle (recordAttempt req context startedAt attempt) c.1).1 with error | ⟨⟩
    · rfl
    · rfl

variable (handle rt req context) in
/-- Charging an output leaves calls of the tracker and of telemetry in the record. -/
theorem chargeOutput_recording (attempt : RoleResponse name)
    (c : S × List (AttemptEvent name S)) :
    ∃ done, Act.exec (Prog.recording handle) (chargeOutput rt req context attempt) c =
        ((Act.exec handle (chargeOutput rt req context attempt) c.1).1,
          (Act.exec handle (chargeOutput rt req context attempt) c.1).2, done ++ c.2) ∧
      (∀ e ∈ done, e.op.Settles) ∧
      done.countP AttemptEvent.recordsSuccess = 0 := by
  obtain ⟨done, hexec, -, huses⟩ :=
    Act.exec_recording handle (chargeOutput rt req context attempt) c.1 c.2
  have hdone := huses AttemptCall.Counts (uses_recordTokenAndCostUsage _ _)
  refine ⟨done, hexec, fun e he => ?_, ?_⟩
  · obtain ⟨o, answer, s⟩ := e
    have ho : o.Counts := hdone _ he
    cases o <;> first | exact ho.elim | trivial
  · rw [List.countP_eq_zero]
    intro e he
    obtain ⟨o, answer, s⟩ := e
    have ho : o.Counts := hdone _ he
    cases o <;> first | exact ho.elim | exact Bool.false_ne_true

/-- An attempt is recorded once its checks have passed. -/
theorem recorded_iff {s s₁ : S} {startedAt : Nat} {attempt : RoleResponse name}
    {checked : Except RuntimeError Unit}
    (h : Act.exec handle (checkAttempt attempt) s = (checked, s₁)) :
    Recorded handle req context s startedAt attempt ↔
      checked = .ok () ∧
        (Act.exec handle (recordAttempt req context startedAt attempt) s₁).1 = .ok () := by
  unfold Recorded
  rw [Act.exec_bind, h]
  rcases checked with error | ⟨⟩ <;> simp

variable (handle rt req context) in
/-- **The first attempt is settled**: after the role's own check one success is recorded if the
attempt passes the checks and the recorder answers. -/
theorem settleFirst_recording (startedAt : Nat) (attempt : RoleResponse name)
    (c : S × List (AttemptEvent name S)) :
    ∃ done, Act.exec (Prog.recording handle) (settleFirst rt req context startedAt attempt) c =
        ((Act.exec handle (settleFirst rt req context startedAt attempt) c.1).1,
          (Act.exec handle (settleFirst rt req context startedAt attempt) c.1).2,
          done ++ checkCall handle c.1 attempt :: c.2) ∧
      (∀ e ∈ done, e.op.Settles) ∧
      done.countP AttemptEvent.recordsSuccess =
        if Recorded handle req context c.1 startedAt attempt then 1 else 0 := by
  have hcheck : Act.exec (Prog.recording handle) (checkAttempt attempt) c = _ :=
    checkAttempt_recording attempt c
  unfold settleFirst
  rw [Act.exec_bind, Act.exec_bind, hcheck]
  rcases hchecked : Act.exec handle (checkAttempt attempt) c.1 with ⟨error | ⟨⟩, s₁⟩
  · -- the `try` block ends with the checks
    refine ⟨[], rfl, fun e he => absurd he List.not_mem_nil, ?_⟩
    rw [if_neg (by simp [recorded_iff hchecked])]
    rfl
  · obtain ⟨step, hstep, hsteps, hcount⟩ :=
      recordAttempt_recording handle req context startedAt attempt
        (s₁, checkCall handle c.1 attempt :: c.2)
    dsimp only
    rw [Act.exec_bind, Act.exec_bind, hstep]
    rcases hrecorded : Act.exec handle (recordAttempt req context startedAt attempt) s₁ with
      ⟨error | ⟨⟩, s₂⟩
    · -- it ends with the record of the step
      rw [hrecorded] at hcount
      refine ⟨step, rfl, hsteps, ?_⟩
      rw [if_neg (by simp [recorded_iff hchecked, hrecorded]), hcount]
      rfl
    · -- the output is charged as well
      rw [hrecorded] at hcount
      obtain ⟨charge, hcharge, hcharges, hnone⟩ :=
        chargeOutput_recording handle rt req context attempt
          (s₂, step ++ checkCall handle c.1 attempt :: c.2)
      dsimp only
      rw [hcharge]
      refine ⟨charge ++ step, by rw [List.append_assoc], ?_, ?_⟩
      · intro e he
        exact (List.mem_append.mp he).elim (hcharges e) (hsteps e)
      · rw [if_pos (by simp [recorded_iff hchecked, hrecorded]), List.countP_append, hnone, hcount]
        rfl

/-- An attempt that passes the checks is settled in one way, the first or the second. -/
theorem exec_settleSecond {s : S} {startedAt : Nat} {attempt : RoleResponse name}
    (h : Passes handle s attempt) :
    Act.exec handle (settleSecond rt req context startedAt attempt) s =
      Act.exec handle (settleFirst rt req context startedAt attempt) s := by
  unfold settleSecond settleFirst
  rw [Act.exec_bind, Act.exec_bind, Act.exec_catching]
  rcases hchecked : Act.exec handle (checkAttempt attempt) s with ⟨checked, s₁⟩
  have hok : checked = .ok () := by
    unfold Passes at h
    rw [hchecked] at h
    exact h
  rw [hok]

variable (handle req context) in
/-- A second attempt that does not pass leaves no success in the record. -/
theorem rejectSecond_recording (startedAt : Nat) (error : RuntimeError)
    (c : S × List (AttemptEvent name S)) :
    ∃ rejected done, Act.exec (Prog.recording handle)
        (rejectSecond req context startedAt error : Attempting name Unit) c =
        (.error rejected, done) ∧
      ∃ later, done.2 = later ++ c.2 ∧ (∀ e ∈ later, e.op.executes = false) ∧
        later.countP AttemptEvent.recordsSuccess = 0 := by
  unfold rejectSecond recordRunStep dateNow
  simp only [Act.exec_bind, Act.exec_perform, Act.exec_ofExcept, Act.exec_throw, Prog.recording]
  generalize hstep : Runtime.roleStep name req context (.text error.message) .failed
    ((handle .dateNow c.1).1 - startedAt) = step
  have hfailed : step.status = .failed := by rw [← hstep]; rfl
  have hquiet (answer : Except RuntimeError Unit) (s : S) :
      let done : List (AttemptEvent name S) :=
        [⟨.recordRunStep step, answer, s⟩, ⟨.dateNow, (handle .dateNow c.1).1, c.1⟩]
      (∀ e ∈ done, e.op.executes = false) ∧ done.countP AttemptEvent.recordsSuccess = 0 := by
    refine ⟨fun e he => ?_, ?_⟩
    · rcases List.mem_cons.mp he with rfl | he
      · rfl
      · rw [List.mem_singleton.mp he]
        rfl
    · cases answer <;> simp [AttemptEvent.recordsSuccess, hfailed]
  rcases (handle (.recordRunStep step) (handle .dateNow c.1).2).1 with error | ⟨⟩
  · exact ⟨_, _, rfl, _, rfl, hquiet (.error error) _⟩
  · exact ⟨_, _, rfl, _, rfl, hquiet (.ok ()) _⟩

variable (handle rt req context) in
/-- **The second attempt is settled**: a success is recorded under the same condition. -/
theorem settleSecond_recording (startedAt : Nat) (attempt : RoleResponse name)
    (c : S × List (AttemptEvent name S)) :
    ∃ done, (Act.exec (Prog.recording handle)
        (settleSecond rt req context startedAt attempt) c).2.2 = done ++ c.2 ∧
      (∀ e ∈ done, e.op.executes = false) ∧
      done.countP AttemptEvent.recordsSuccess =
        if Recorded handle req context c.1 startedAt attempt then 1 else 0 := by
  have hcheck : Act.exec (Prog.recording handle) (checkAttempt attempt) c = _ :=
    checkAttempt_recording attempt c
  by_cases hpasses : Passes handle c.1 attempt
  · have hpasses' : Passes (Prog.recording handle) c attempt := by
      unfold Passes at hpasses ⊢
      rw [hcheck]
      exact hpasses
    obtain ⟨done, hexec, hdone, hcount⟩ := settleFirst_recording handle rt req context
      startedAt attempt c
    rw [exec_settleSecond hpasses', hexec]
    refine ⟨done ++ [checkCall handle c.1 attempt], by simp, fun e he => ?_, ?_⟩
    · rcases List.mem_append.mp he with he | he
      · exact executes_of_settles (hdone e he)
      · rw [List.mem_singleton.mp he]
        rfl
    · rw [List.countP_append, hcount]
      rfl
  · unfold Passes at hpasses
    rcases hchecked : Act.exec handle (checkAttempt attempt) c.1 with ⟨error | ⟨⟩, s₁⟩
    · obtain ⟨rejected, done, hexec, later, hlater, hnone, hcount⟩ :=
        rejectSecond_recording handle req context startedAt error
          (s₁, checkCall handle c.1 attempt :: c.2)
      unfold settleSecond
      rw [hchecked] at hcheck
      rw [Act.exec_bind, Act.exec_catching, hcheck]
      dsimp only
      rw [hexec]
      refine ⟨later ++ [checkCall handle c.1 attempt], by simp [hlater], fun e he => ?_, ?_⟩
      · rcases List.mem_append.mp he with he | he
        · exact hnone e he
        · rw [List.mem_singleton.mp he]
          rfl
      · rw [if_neg (by simp [recorded_iff hchecked]), List.countP_append, hcount]
        rfl
    · rw [hchecked] at hpasses
      exact absurd rfl hpasses

/-! ### The record of a run -/

/-- Calls among which the role is not executed, and no success is recorded. -/
structure Quiet (calls : List (AttemptEvent name S)) : Prop where
  executes : ∀ e ∈ calls, e.op.executes = false
  successes : calls.countP AttemptEvent.recordsSuccess = 0

/-- **Calls before the first execution**: the budgets are checked, and the request is charged. -/
structure Prepared (rt : Runtime) (req : RoleRequest) (calls : List (AttemptEvent name S)) :
    Prop extends Quiet calls where
  checked : ∃ e ∈ calls, e.checksBudget rt req = true
  charged : calls.countP (·.op.chargesRequest rt req) = 1

variable (handle rt req context) in
theorem prepare_recording (s : S) :
    ∃ done, Act.exec (Prog.recording handle) (prepare rt req context) (s, []) =
        ((Act.exec handle (prepare rt req context) s).1,
          (Act.exec handle (prepare rt req context) s).2, done) ∧
      Quiet done ∧
      ∀ startedAt, (Act.exec handle (prepare rt req context) s).1 = .ok startedAt →
        Prepared rt req done := by
  obtain ⟨done, hexec, -, huses⟩ := Act.exec_recording handle (prepare rt req context) s []
  rw [List.append_nil] at hexec
  have hplain := huses AttemptCall.IsPlain uses_prepare
  have hquiet : Quiet done :=
    { executes := fun e he => executes_of_isPlain (hplain e he)
      successes := List.countP_eq_zero.mpr fun e he => by
        rw [recordsSuccess_of_isPlain (hplain e he)]
        exact Bool.false_ne_true }
  refine ⟨done, hexec, hquiet, fun startedAt hok => ?_⟩
  rw [hok] at hexec
  obtain ⟨hchecked, hcharged⟩ := prepare_of_ok hexec
  exact { hquiet with checked := hchecked, charged := hcharged }

variable (handle rt req context) in
/-- **The record up to the first attempt.** -/
theorem firstAttempt_recording (s : S) :
    ∃ done, Act.exec (Prog.recording handle) (firstAttempt rt req context) (s, []) =
        ((Act.exec handle (firstAttempt rt req context) s).1,
          (Act.exec handle (firstAttempt rt req context) s).2, done) ∧
      (Quiet done ∧ (∀ first, (Act.exec handle (firstAttempt rt req context) s).1 ≠ .ok first) ∨
        ∃ (x : AttemptEvent name S) (before : List (AttemptEvent name S)),
          done = x :: before ∧ x.op.executes = true ∧ Prepared rt req before ∧
          ∀ startedAt first,
            (Act.exec handle (firstAttempt rt req context) s).1 = .ok (startedAt, first) →
              x.response? = some first) := by
  obtain ⟨before, hexec, hquiet, hprepared⟩ :=
    prepare_recording handle rt req context s
  unfold firstAttempt
  rw [Act.exec_bind, Act.exec_bind, hexec]
  rcases hstarted : Act.exec handle (prepare rt req context) s with ⟨error | startedAt, s'⟩
  · refine ⟨before, rfl, Or.inl ⟨hquiet, fun first => by simp⟩⟩
  · rw [hstarted] at hprepared
    dsimp only
    rw [Act.exec_bind, Act.exec_bind, exec_executeRoleWithLoop, exec_executeRoleWithLoop]
    refine ⟨⟨.executeRoleWithLoop, (handle .executeRoleWithLoop s').1, s'⟩ :: before, ?_,
      Or.inr ⟨_, _, rfl, rfl, hprepared startedAt rfl, fun startedAt first hok => ?_⟩⟩
    · dsimp only [Prog.recording]
      rcases (handle .executeRoleWithLoop s').1 with error | response <;> rfl
    · rcases hanswer : (handle .executeRoleWithLoop s').1 with error | response
      · rw [hanswer] at hok
        cases hok
      · rw [hanswer] at hok
        cases hok
        rfl

/-- **The record of a run that executes the role once**, or not at all. -/
structure Single (rt : Runtime) (req : RoleRequest) (record : List (AttemptEvent name S)) : Prop where
  prepared : ∀ later (x : AttemptEvent name S) before, record = later ++ x :: before →
    x.op.executes = true → Prepared rt req before
  successes : record.countP AttemptEvent.recordsSuccess ≤ 1

/-- **The record of a run that executes the role again**: after the calls `before` the first
execution `x₁`, then the role's own check and the calls `between`, and the second execution `x₂`. -/
structure Repeated (handle : (o : AttemptCall name) → S → o.Ans × S) (rt : Runtime)
    (req : RoleRequest) (context : RoleExecutionContext) (startedAt : Nat)
    (first : RoleResponse name) (s₁ s₂ : S) (x₁ x₂ : AttemptEvent name S)
    (before between after : List (AttemptEvent name S)) : Prop where
  prepared : Prepared rt req before
  executes₁ : x₁.op.executes = true
  response : x₁.response? = some first
  executes₂ : x₂.op.executes = true
  quietBetween : ∀ e ∈ between, e.op.Settles
  quietAfter : ∀ e ∈ after, e.op.executes = false
  recordedFirst : between.countP AttemptEvent.recordsSuccess =
    if Recorded handle req context s₁ startedAt first then 1 else 0
  recordedSecond : after.countP AttemptEvent.recordsSuccess =
    match Act.exec handle executeRoleWithLoop s₂ with
    | (.ok second, s₃) => if Recorded handle req context s₃ startedAt second then 1 else 0
    | (.error _, _) => 0

/-- The last of several elements, where one is known that none of them follows. -/
theorem split_cases {α : Type} {p : α → Bool} {before after earlier later : List α} {x e : α}
    (hafter : ∀ a ∈ after, p a = false) (h : after ++ x :: before = later ++ e :: earlier)
    (he : p e = true) : (e = x ∧ earlier = before) ∨ ∃ rest, before = rest ++ e :: earlier := by
  rcases List.append_eq_append_iff.mp h with ⟨rest, -, hrest⟩ | ⟨rest, rfl, hrest⟩
  · cases rest with
    | nil =>
      obtain ⟨rfl, rfl⟩ := List.cons.inj hrest
      exact Or.inl ⟨rfl, rfl⟩
    | cons y rest => exact Or.inr ⟨rest, (List.cons.inj hrest).2⟩
  · cases rest with
    | nil =>
      obtain ⟨rfl, rfl⟩ := List.cons.inj hrest
      exact Or.inl ⟨rfl, rfl⟩
    | cons y rest =>
      obtain ⟨rfl, -⟩ := List.cons.inj hrest
      have hfalse := hafter e (List.mem_append_right _ List.mem_cons_self)
      rw [he] at hfalse
      cases hfalse

theorem Single.of_quiet {record : List (AttemptEvent name S)} (h : Quiet record) :
    Single rt req record := by
  refine ⟨fun later x before hsplit hx => ?_, h.successes.le.trans (Nat.zero_le 1)⟩
  have hfalse := h.executes x (hsplit ▸ List.mem_append_right _ List.mem_cons_self)
  rw [hx] at hfalse
  cases hfalse

theorem Single.of_prepared {x : AttemptEvent name S} {before after : List (AttemptEvent name S)}
    (hbefore : Prepared rt req before) (hx : x.op.executes = true)
    (hafter : ∀ e ∈ after, e.op.executes = false)
    (hcount : after.countP AttemptEvent.recordsSuccess ≤ 1) :
    Single rt req (after ++ x :: before) := by
  refine ⟨fun later e earlier hsplit he => ?_, ?_⟩
  · rcases split_cases hafter hsplit he with ⟨-, rfl⟩ | ⟨rest, hrest⟩
    · exact hbefore
    · have hfalse := hbefore.executes e (hrest ▸ List.mem_append_right _ List.mem_cons_self)
      rw [he] at hfalse
      cases hfalse
  · have hnone := recordsSuccess_of_executes hx
    rw [List.countP_append, List.countP_cons, hbefore.successes, hnone]
    simpa using hcount

variable (handle rt req context) in
/-- **The record of a run** of `execute`: the role is executed again exactly if something fails after
the first attempt. -/
theorem calls_cases (s : S) :
    (Single rt req (calls handle rt req context s) ∧
      ∀ startedAt first s₁ s₂, ¬ Retried handle rt req context s startedAt first s₁ s₂) ∨
    ∃ startedAt first s₁ s₂, Retried handle rt req context s startedAt first s₁ s₂ ∧
      ∃ x₁ x₂ before between after,
        calls handle rt req context s =
          after ++ x₂ :: (between ++ checkCall handle s₁ first :: x₁ :: before) ∧
        Repeated handle rt req context startedAt first s₁ s₂ x₁ x₂ before between after := by
  obtain ⟨done, hexec, hdone⟩ :=
    firstAttempt_recording handle rt req context s
  unfold calls execute
  rw [Act.exec_bind, hexec]
  rcases hfirst : Act.exec handle (firstAttempt rt req context) s with ⟨error | ⟨startedAt, first⟩, s₁⟩
  · -- there is no first attempt to settle
    refine Or.inl ⟨?_, fun startedAt first s₁ s₂ hretried => ?_⟩
    · rcases hdone with ⟨hquiet, -⟩ | ⟨x, before, rfl, hx, hprepared, -⟩
      · exact Single.of_quiet hquiet
      · have hnone : ∀ e ∈ ([] : List (AttemptEvent name S)), e.op.executes = false :=
          fun e he => absurd he List.not_mem_nil
        exact Single.of_prepared hprepared hx hnone (Nat.zero_le 1)
    · have hattempted := hretried.attempted
      rw [hfirst] at hattempted
      cases hattempted
  · rw [hfirst] at hdone
    obtain ⟨x₁, before, rfl, hx₁, hprepared, hresponse⟩ :=
      hdone.resolve_left fun h => h.2 _ rfl
    obtain ⟨between, hsettled, hbetween, hcount⟩ := settleFirst_recording handle rt req context
      startedAt first (s₁, x₁ :: before)
    dsimp only
    rw [Act.exec_catching, Act.exec_bind, hsettled]
    rcases hfailed : Act.exec handle (settleFirst rt req context startedAt first) s₁ with
      ⟨error | ⟨⟩, s₂⟩
    · refine Or.inr ⟨startedAt, first, s₁, s₂, ⟨hfirst, error, hfailed⟩, x₁, ?_⟩
      dsimp only
      unfold retry
      rw [Act.exec_bind, exec_executeRoleWithLoop]
      dsimp only [Prog.recording]
      rcases hanswer : (handle .executeRoleWithLoop s₂).1 with error₂ | second
      · refine ⟨⟨.executeRoleWithLoop, .error error₂, s₂⟩, before, between, [], rfl, ?_⟩
        exact
          { prepared := hprepared
            executes₁ := hx₁
            response := hresponse startedAt first rfl
            executes₂ := rfl
            quietBetween := hbetween
            quietAfter := fun e he => absurd he List.not_mem_nil
            recordedFirst := hcount
            recordedSecond := by
              rw [exec_executeRoleWithLoop, hanswer]
              rfl }
      · obtain ⟨after, hafter, hnone, hcount₂⟩ := settleSecond_recording handle rt req
          context startedAt second
          ((handle .executeRoleWithLoop s₂).2, (⟨.executeRoleWithLoop, .ok second, s₂⟩ :
            AttemptEvent name S) :: (between ++ checkCall handle s₁ first :: x₁ :: before))
        refine ⟨⟨.executeRoleWithLoop, .ok second, s₂⟩, before, between, after, ?_, ?_⟩
        · dsimp only
          rw [Act.exec_bind]
          rcases hsecond : Act.exec (Prog.recording handle)
            (settleSecond rt req context startedAt second) _ with ⟨error₂ | ⟨⟩, c⟩
          · rw [hsecond] at hafter
            exact hafter
          · rw [hsecond] at hafter
            exact hafter
        · exact
            { prepared := hprepared
              executes₁ := hx₁
              response := hresponse startedAt first rfl
              executes₂ := rfl
              quietBetween := hbetween
              quietAfter := hnone
              recordedFirst := hcount
              recordedSecond := by
                rw [exec_executeRoleWithLoop, hanswer]
                exact hcount₂ }
    · refine Or.inl ⟨?_, fun startedAt first s₁ s₂ hretried => ?_⟩
      · have hsingle : Single rt req
            ((between ++ [checkCall handle s₁ first]) ++ x₁ :: before) := by
          refine Single.of_prepared hprepared hx₁ (fun e he => ?_) ?_
          · rcases List.mem_append.mp he with he | he
            · exact executes_of_settles (hbetween e he)
            · rw [List.mem_singleton.mp he]
              rfl
          · rw [List.countP_append, hcount]
            change (if _ then 1 else 0) + 0 ≤ 1
            split <;> simp
        rw [List.append_assoc] at hsingle
        exact hsingle
      · obtain ⟨hattempted, error, herror⟩ := hretried
        rw [hfirst] at hattempted
        cases hattempted
        rw [hfailed] at herror
        cases herror

/-! ### The three parts -/

theorem Single.retriesOnInvalid {record : List (AttemptEvent name S)} (h : Single rt req record) :
    RetriesOnInvalid record := by
  intro later second between first earlier hsplit hsecond hfirst
  have hprepared := h.prepared later second _ hsplit hsecond
  have hfalse := hprepared.executes first (List.mem_append_right _ List.mem_cons_self)
  rw [hfirst] at hfalse
  cases hfalse

theorem Single.chargesEach {record : List (AttemptEvent name S)} (h : Single rt req record) :
    ChargesEach rt req record := by
  intro later e earlier hsplit he
  have hprepared := h.prepared later e _ hsplit he
  have hall : earlier.takeWhile (!·.op.executes) = earlier := by
    refine List.takeWhile_eq_self_iff.mpr fun c hc => ?_
    rw [hprepared.executes c hc]
    rfl
  rw [hall]
  exact ⟨hprepared.checked, hprepared.charged⟩

section Repeated

variable {startedAt : Nat} {first : RoleResponse name} {s₁ s₂ : S} {x₁ x₂ : AttemptEvent name S}
  {before between after : List (AttemptEvent name S)}

theorem Repeated.notExecutes
    (h : Repeated handle rt req context startedAt first s₁ s₂ x₁ x₂ before between after) :
    ∀ e ∈ between ++ [checkCall handle s₁ first], e.op.executes = false := by
  intro e he
  rcases List.mem_append.mp he with he | he
  · exact executes_of_settles (h.quietBetween e he)
  · rw [List.mem_singleton.mp he]
    rfl

theorem Repeated.retriesOnInvalid_iff
    (h : Repeated handle rt req context startedAt first s₁ s₂ x₁ x₂ before between after) :
    RetriesOnInvalid (after ++ x₂ :: (between ++ checkCall handle s₁ first :: x₁ :: before)) ↔
      ¬ Passes handle s₁ first := by
  rw [List.append_cons between]
  constructor
  · intro hinvalid hpasses
    obtain ⟨response, hresponse, hrefused⟩ :=
      hinvalid after x₂ _ x₁ before rfl h.executes₂ h.executes₁
    have hsame : first = response := Option.some.inj (h.response.symm.trans hresponse)
    subst hsame
    obtain ⟨hanswer, hvalid⟩ := passes_iff.mp hpasses
    rcases hrefused with ⟨e, he, hrefuses⟩ | hinvalid
    · rcases List.mem_append.mp he with he | he
      · exact not_refuses_of_settles (h.quietBetween e he) first hrefuses
      · rw [List.mem_singleton.mp he, refuses_checkCall] at hrefuses
        exact hrefuses hanswer
    · exact hinvalid hvalid
  · intro hnot later second between' first' earlier hsplit hsecond hfirst
    have hbefore : ∀ rest, before ≠ rest ++ first' :: earlier := by
      intro rest hrest
      have hfalse := h.prepared.executes first' (hrest ▸ List.mem_append_right _ List.mem_cons_self)
      rw [hfirst] at hfalse
      cases hfalse
    -- the second execution is `x₂`, as there is none before the first
    rcases split_cases h.quietAfter hsplit hsecond with ⟨rfl, hearlier⟩ | ⟨rest, hrest⟩
    · rcases split_cases h.notExecutes hearlier.symm hfirst with ⟨rfl, rfl⟩ | ⟨rest, hrest⟩
      · have hbetween := List.append_cancel_right hearlier
        subst hbetween
        refine ⟨first, h.response, ?_⟩
        by_contra hneither
        refine hnot (passes_iff.mpr ⟨?_, ?_⟩)
        · by_contra hanswer
          exact hneither (Or.inl ⟨_, List.mem_append_right _ List.mem_cons_self,
            (refuses_checkCall s₁ first).mpr hanswer⟩)
        · by_contra hinvalid
          exact hneither (Or.inr hinvalid)
      · exact absurd hrest (hbefore rest)
    · rcases split_cases h.notExecutes hrest hsecond with ⟨-, hearlier⟩ | ⟨rest, hrest⟩
      · exact absurd hearlier.symm (hbefore between')
      · refine absurd ?_ (hbefore (rest ++ second :: between'))
        rw [hrest, List.append_assoc]
        rfl

theorem Repeated.recordsOnce_iff
    (h : Repeated handle rt req context startedAt first s₁ s₂ x₁ x₂ before between after) :
    RecordsOnce (after ++ x₂ :: (between ++ checkCall handle s₁ first :: x₁ :: before)) ↔
      (Recorded handle req context s₁ startedAt first →
        ∀ second s₃, Act.exec handle executeRoleWithLoop s₂ = (.ok second, s₃) →
          ¬ Recorded handle req context s₃ startedAt second) := by
  have hcount : (after ++ x₂ :: (between ++ checkCall handle s₁ first :: x₁ :: before)).countP
      AttemptEvent.recordsSuccess =
        after.countP AttemptEvent.recordsSuccess + between.countP AttemptEvent.recordsSuccess := by
    have hx₁ := recordsSuccess_of_executes h.executes₁
    have hx₂ := recordsSuccess_of_executes h.executes₂
    have hcheck : (checkCall handle s₁ first).recordsSuccess = false := rfl
    simp [List.countP_append, hx₁, hx₂, hcheck, h.prepared.successes]
  unfold RecordsOnce
  rw [hcount, h.recordedFirst, h.recordedSecond]
  rcases Act.exec handle executeRoleWithLoop s₂ with ⟨error | second, s₃⟩
  · refine iff_of_true ?_ fun _ second s₃ hsecond => ?_
    · dsimp only
      split <;> simp
    · cases hsecond
  · dsimp only
    constructor
    · intro hcount hfirst second' s₃' hsecond
      cases hsecond
      intro hrecorded
      rw [if_pos hfirst, if_pos hrecorded] at hcount
      omega
    · intro hnot
      by_cases hfirst : Recorded handle req context s₁ startedAt first
      · rw [if_neg (hnot hfirst second s₃ rfl)]
        split <;> simp
      · rw [if_neg hfirst]
        split <;> simp

/-- Before the second execution the budgets are not checked. -/
theorem Repeated.not_chargesEach
    (h : Repeated handle rt req context startedAt first s₁ s₂ x₁ x₂ before between after) :
    ¬ ChargesEach rt req
      (after ++ x₂ :: (between ++ checkCall handle s₁ first :: x₁ :: before)) := by
  intro hcharges
  obtain ⟨⟨c, hc, hchecks⟩, -⟩ := hcharges after x₂ _ rfl h.executes₂
  have hstop : List.takeWhile (!·.op.executes)
      (between ++ checkCall handle s₁ first :: x₁ :: before) =
      between ++ [checkCall handle s₁ first] := by
    rw [List.append_cons between, List.takeWhile_append_of_pos fun e he => by rw [h.notExecutes e he]; rfl,
      List.takeWhile_cons_of_neg (by rw [h.executes₁]; exact Bool.false_ne_true),
      List.append_nil]
  rw [hstop] at hc
  rcases List.mem_append.mp hc with hc | hc
  · rw [checksBudget_of_settles (h.quietBetween c hc)] at hchecks
    cases hchecks
  · rw [List.mem_singleton.mp hc] at hchecks
    cases hchecks

end Repeated

theorem Retried.unique {s : S} {startedAt startedAt' : Nat} {first first' : RoleResponse name}
    {s₁ s₁' s₂ s₂' : S} (h : Retried handle rt req context s startedAt first s₁ s₂)
    (h' : Retried handle rt req context s startedAt' first' s₁' s₂') :
    startedAt = startedAt' ∧ first = first' ∧ s₁ = s₁' ∧ s₂ = s₂' := by
  obtain ⟨hattempted, error, hfailed⟩ := h
  obtain ⟨hattempted', error', hfailed'⟩ := h'
  rw [hattempted] at hattempted'
  cases hattempted'
  rw [hfailed] at hfailed'
  cases hfailed'
  exact ⟨rfl, rfl, rfl, rfl⟩

/-- **The attempts of a role.** They are as they should be exactly if nothing fails after the first
one. A role is executed again for an invalid output only, exactly if what fails are the checks; two
successes are recorded exactly if both attempts pass the checks and are recorded. -/
theorem attempts_correct_iff (handle : (o : AttemptCall name) → S → o.Ans × S) (rt : Runtime)
    (req : RoleRequest) (context : RoleExecutionContext) (s : S) :
    (AttemptsCorrect rt req (calls handle rt req context s) ↔
      ∀ startedAt first s₁ s₂, ¬ Retried handle rt req context s startedAt first s₁ s₂) ∧
    (RetriesOnInvalid (calls handle rt req context s) ↔
      ∀ startedAt first s₁ s₂, Retried handle rt req context s startedAt first s₁ s₂ →
        ¬ Passes handle s₁ first) ∧
    (RecordsOnce (calls handle rt req context s) ↔
      ∀ startedAt first s₁ s₂, Retried handle rt req context s startedAt first s₁ s₂ →
        Recorded handle req context s₁ startedAt first →
        ∀ second s₃, Act.exec handle executeRoleWithLoop s₂ = (.ok second, s₃) →
          ¬ Recorded handle req context s₃ startedAt second) ∧
    (ChargesEach rt req (calls handle rt req context s) ↔
      ∀ startedAt first s₁ s₂, ¬ Retried handle rt req context s startedAt first s₁ s₂) := by
  rcases calls_cases handle rt req context s with
    ⟨hsingle, hnot⟩ | ⟨startedAt, first, s₁, s₂, hretried, x₁, x₂, before, between, after, hcalls,
      hrepeated⟩
  · -- the role is executed once at most
    have hcorrect : AttemptsCorrect rt req (calls handle rt req context s) :=
      { retriesOnInvalid := hsingle.retriesOnInvalid
        recordsOnce := hsingle.successes
        chargesEach := hsingle.chargesEach }
    exact ⟨iff_of_true hcorrect hnot,
      iff_of_true hcorrect.retriesOnInvalid fun startedAt first s₁ s₂ h => (hnot _ _ _ _ h).elim,
      iff_of_true hcorrect.recordsOnce fun startedAt first s₁ s₂ h => (hnot _ _ _ _ h).elim,
      iff_of_true hcorrect.chargesEach hnot⟩
  · rw [hcalls]
    have hcharges := hrepeated.not_chargesEach
    have hsome : ¬ ∀ startedAt first s₁ s₂,
        ¬ Retried handle rt req context s startedAt first s₁ s₂ :=
      fun hnone => hnone _ _ _ _ hretried
    refine ⟨iff_of_false (fun h => hcharges h.chargesEach) hsome, ?_, ?_,
      iff_of_false hcharges hsome⟩
    · rw [hrepeated.retriesOnInvalid_iff]
      refine ⟨fun hfails startedAt' first' s₁' s₂' h => ?_, fun h => h _ _ _ _ hretried⟩
      obtain ⟨rfl, rfl, rfl, rfl⟩ := hretried.unique h
      exact hfails
    · rw [hrepeated.recordsOnce_iff]
      refine ⟨fun hfails startedAt' first' s₁' s₂' h => ?_, fun h => h _ _ _ _ hretried⟩
      obtain ⟨rfl, rfl, rfl, rfl⟩ := hretried.unique h
      exact hfails

end Runs

end Attempts

/-! ### A retry of an attempt that has passed -/

/-- A tracker, and the number of counters that telemetry was given. -/
structure Counted where
  cost : RoleRunCostTracker
  counters : Nat

def approval : RoleResponse .reviewer where
  role := .reviewer
  summary := "Approved"
  output := Runtime.sampleOutput .reviewer
  payload := .obj [("approved", .bool true)]
  confidence := 1

/-- A reviewer that approves, and telemetry that fails once, at the first counter after the first
review. -/
def lateTelemetry : (o : AttemptCall .reviewer) → Counted → o.Ans × Counted
  | .dateNow, w => (0, w)
  | .readCost, w => (w.cost, w)
  | .recordTokenUsage _ tokens costUsdMicro, w =>
    let cost : RoleRunCostTracker :=
      { estimatedTokensRun := w.cost.estimatedTokensRun + tokens
        estimatedTokensTask := w.cost.estimatedTokensTask + tokens
        estimatedCostUsdMicro := w.cost.estimatedCostUsdMicro + costUsdMicro }
    ((), { w with cost })
  | .executeRoleWithLoop, w => (.ok approval, w)
  | .validateRole _, w | .recordRunStep _, w => (.ok (), w)
  | .incrementCounter _, w =>
    let w' := { w with counters := w.counters + 1 }
    if w.counters = 3 then (.error (.plain "Telemetry is not available"), w')
    else (.ok (), w')

/-- **An approval is asked for again**: the first review has passed the checks and is recorded, and a
counter of telemetry fails. The reviewer is executed again, without a check and without a charge,
and a second success is recorded. -/
theorem passed_attempt_repeated :
    let record := calls lateTelemetry Runtime.sampleRuntime ToolCalls.reviewRequest
      ToolCalls.reviewContext { cost := ⟨0, 0, 0⟩, counters := 0 }
    ¬ RetriesOnInvalid record ∧ ¬ RecordsOnce record ∧
      ¬ ChargesEach Runtime.sampleRuntime ToolCalls.reviewRequest record := by
  intro record
  have hretried : ∃ s₁ s₂, Retried lateTelemetry Runtime.sampleRuntime ToolCalls.reviewRequest
      ToolCalls.reviewContext { cost := ⟨0, 0, 0⟩, counters := 0 } 0 approval s₁ s₂ ∧
      Recorded lateTelemetry ToolCalls.reviewRequest ToolCalls.reviewContext s₁ 0 approval ∧
      Recorded lateTelemetry ToolCalls.reviewRequest ToolCalls.reviewContext s₂ 0 approval :=
    ⟨_, _, ⟨rfl, _, rfl⟩, rfl, rfl⟩
  obtain ⟨s₁, s₂, hretried, hfirst, hsecond⟩ := hretried
  rcases calls_cases lateTelemetry Runtime.sampleRuntime ToolCalls.reviewRequest
    ToolCalls.reviewContext { cost := ⟨0, 0, 0⟩, counters := 0 } with
    ⟨-, hnot⟩ | ⟨startedAt, first, s₁', s₂', hretried', x₁, x₂, before, between, after, hcalls,
      hrepeated⟩
  · exact absurd hretried (hnot _ _ _ _)
  · obtain ⟨rfl, rfl, rfl, rfl⟩ := hretried.unique hretried'
    rw [show record = _ from hcalls, hrepeated.retriesOnInvalid_iff, hrepeated.recordsOnce_iff]
    exact ⟨fun hfails => hfails rfl, fun hnot => hnot hfirst approval s₂ rfl hsecond,
      hrepeated.not_chargesEach⟩

end RoleRunner

end AiOrchestrator
