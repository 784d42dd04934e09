import AiOrchestrator.Application.Planning
import AiOrchestrator.Results.Backlog

/-!
# Planning again

`PlanningService.plan` puts a new backlog in the place of the old one, and leaves the rest of the
state as it is: the lists of completed and blocked tasks, the active task and the other milestones.
The state is saved only if these fit the new backlog, and the tasks that were done are kept only if
the planner keeps them.

`replanning_iff` says when a plan replaces another one: the new backlog has the done tasks as done
and the blocked ones as blocked tasks, the active task is one of its tasks, and where its milestone
is in progress no other one is (`Replaceable`).
-/

namespace AiOrchestrator

namespace ProjectState

/-- **The completed tasks of a state** are still there and done in another one. -/
structure KeepsHistory (state saved : ProjectState) : Prop where
  done : ∀ id task, state.backlog.tasks.get? id = some task → task.status = .done →
    ∃ task', saved.backlog.tasks.get? id = some task' ∧ task'.status = .done
  listed : ∀ id ∈ state.execution.completedTaskIds, id ∈ saved.execution.completedTaskIds

/-- **A plan that can replace the backlog** of a state. -/
structure Replaceable (state : ProjectState) (output : PlanningOutput) : Prop where
  done : ∀ id task, state.backlog.tasks.get? id = some task → task.status = .done →
    ∃ task', output.backlog.tasks.get? id = some task' ∧ task'.status = .done
  blocked : ∀ id ∈ state.execution.blockedTaskIds, ∃ task,
    output.backlog.tasks.get? id = some task ∧ task.status = .blocked
  active : ∀ id, state.execution.activeTaskId = some id → output.backlog.tasks.Finds id
  milestone : output.milestone.status = .inProgress → ∀ id milestone,
    state.milestones.get? id = some milestone → id ≠ output.milestone.id →
      milestone.status ≠ .inProgress

/-- **The state with a plan** is valid and keeps the completed tasks exactly if the plan can replace
the backlog. -/
theorem installPlan_keeps_iff {state : ProjectState} (h : state.Valid) {output : PlanningOutput}
    (hout : output.SelfConsistent) :
    (state.installPlan output).Valid ∧ state.KeepsHistory (state.installPlan output) ↔
      state.Replaceable output := by
  rw [installPlan_valid_iff h hout]
  constructor
  · rintro ⟨hfits, hkeeps⟩
    refine ⟨hkeeps.done, hfits.blocked, fun id hid => ?_, fun hprogress id milestone hget hne => ?_⟩
    · exact hfits.activeTask id hid (h.schema.execution.1 id hid)
    · intro hother
      have hsame := Dict.length_filter_values_le_one_iff.mp hfits.oneInProgress
        output.milestone.id id output.milestone milestone (Dict.get?_set_self _ _ _)
        ((Dict.get?_set_of_ne hne _ _).trans hget) (decide_eq_true hprogress)
        (decide_eq_true hother)
      exact hne hsame.symm
  · rintro ⟨hdone, hblocked, hactive, hmilestone⟩
    refine ⟨⟨fun id hid _ => hactive id hid, ?_, hblocked, fun id hid => ?_⟩, hdone, fun _ => id⟩
    · -- the milestones in progress are old ones, or the new one is alone
      have hold := Dict.length_filter_values_le_one_iff.mp h.oneInProgress
      refine Dict.length_filter_values_le_one_iff.mpr fun id id' m m' hget hget' hm hm' => ?_
      rw [Dict.get?_set] at hget hget'
      split at hget <;> split at hget'
      · next heq heq' => exact heq.trans heq'.symm
      · next heq hne =>
        cases hget
        exact absurd (of_decide_eq_true hm') (hmilestone (of_decide_eq_true hm) id' m' hget' hne)
      · next hne heq =>
        cases hget'
        exact absurd (of_decide_eq_true hm) (hmilestone (of_decide_eq_true hm') id m hget hne)
      · exact hold id id' m m' hget hget' hm hm'
    · obtain ⟨task, hget, hstatus⟩ := h.completedRefs id hid
      exact hdone id task hget hstatus

end ProjectState

/-! ### The calls of the service -/

namespace PlanningService

section Run

attribute [local irreducible] assertProjectState

variable {S : Type} (handle : (o : PlanningCall) → S → o.Ans × S)

/-- The store is asked to save a state. -/
def Saves (record : List (Prog.Event PlanningCall PlanningCall.Ans S)) (saved : ProjectState) :
    Prop :=
  ∃ e ∈ record, ∃ expectedRevision, e.op = .save saved expectedRevision

/-- **The plan is committed**: a state is saved that is valid and keeps the completed tasks. -/
def Commits (given : Option ProjectState) (s : S) (state : ProjectState) : Prop :=
  ∃ saved, Saves (Act.exec (Prog.recording handle) (plan given) (s, [])).2.2 saved ∧
    validateProjectState saved = [] ∧ state.KeepsHistory saved

variable {handle}

/-- The states that are saved are all of one kind. -/
def SavesOnly (P : ProjectState → Prop) : PlanningCall → Prop
  | .save state _ => P state
  | .load | .randomUUID | .now | .execute .. | .validate _ | .recordArtifact .. | .recordEvent _ =>
    True

theorem uses_planningCall {P : PlanningCall → Prop} {o : PlanningCall} (h : P o) :
    Act.Uses P (planningCall o) :=
  Act.uses_bind (Act.uses_perform h) fun answer => Act.uses_ofExcept answer

theorem uses_askPlanner (given : Option ProjectState) :
    Act.Uses (SavesOnly fun _ => False) (askPlanner given) := by
  have hstate : Act.Uses (SavesOnly fun _ => False) (currentState given) := by
    cases given with
    | some state => exact Act.uses_pure state
    | none => exact uses_planningCall (o := .load) trivial
  unfold askPlanner
  refine Act.uses_bind hstate fun state => ?_
  refine Act.uses_bind (uses_planningCall (o := .randomUUID) trivial) fun _ => ?_
  refine Act.uses_bind (uses_planningCall (o := .randomUUID) trivial) fun runId => ?_
  refine Act.uses_bind (uses_planningCall (o := .execute _ _ _) trivial) fun response => ?_
  refine Act.uses_bind (uses_planningCall (o := .validate response) trivial) fun _ => ?_
  exact Act.uses_bind (Act.uses_ofExcept _) fun _ => Act.uses_pure _

theorem uses_recordPlan {P : ProjectState → Prop} (asked : Asked) (revision : Nat) :
    Act.Uses (SavesOnly P) (recordPlan asked revision) := by
  unfold recordPlan
  refine Act.uses_bind (uses_planningCall (o := .randomUUID) trivial) fun _ => ?_
  refine Act.uses_bind (uses_planningCall (o := .now) trivial) fun _ => ?_
  refine Act.uses_bind (uses_planningCall (o := .recordArtifact _ _) trivial) fun _ => ?_
  refine Act.uses_bind (uses_planningCall (o := .randomUUID) trivial) fun _ => ?_
  refine Act.uses_bind (uses_planningCall (o := .now) trivial) fun _ => ?_
  exact uses_planningCall (o := .recordEvent _) trivial

theorem uses_commitPlan (asked : Asked) :
    Act.Uses (SavesOnly (· = asked.state.installPlan asked.response.output)) (commitPlan asked) := by
  unfold commitPlan
  generalize asked.state.installPlan asked.response.output = state
  dsimp only
  generalize assertProjectState state = valid
  refine Act.uses_bind (Act.uses_ofExcept _) fun _ => ?_
  refine Act.uses_bind (uses_planningCall (o := .save state state.revision) rfl) fun revision => ?_
  exact Act.uses_bind (uses_recordPlan asked revision) fun _ => Act.uses_pure _

/-- A record of calls is only extended. -/
theorem saves_mono {α : Type} (m : Planning α) {c : S × List (Prog.Event PlanningCall PlanningCall.Ans S)}
    {saved : ProjectState} (h : Saves c.2 saved) :
    Saves (Act.exec (Prog.recording handle) m c).2.2 saved := by
  obtain ⟨done, hexec, -, -⟩ := Act.exec_recording handle m c.1 c.2
  obtain ⟨e, he, hop⟩ := h
  rw [show c = (c.1, c.2) from rfl, hexec]
  exact ⟨e, List.mem_append_right _ he, hop⟩

/-- What is in the record after a program was there before, or is of the kind that it saves. -/
theorem saves_cases {α : Type} {m : Planning α} {P : ProjectState → Prop}
    (huses : Act.Uses (SavesOnly P) m) {c : S × List (Prog.Event PlanningCall PlanningCall.Ans S)}
    {saved : ProjectState} (h : Saves (Act.exec (Prog.recording handle) m c).2.2 saved) :
    P saved ∨ Saves c.2 saved := by
  obtain ⟨done, hexec, -, hdone⟩ := Act.exec_recording handle m c.1 c.2
  rw [show c = (c.1, c.2) from rfl, hexec] at h
  obtain ⟨e, he, expectedRevision, hop⟩ := h
  rcases List.mem_append.mp he with hnew | hold
  · have honly := hdone (SavesOnly P) huses e hnew
    rw [hop] at honly
    exact Or.inl honly
  · exact Or.inr ⟨e, hold, expectedRevision, hop⟩

theorem exec_commitPlan_rejected (asked : Asked)
    (h : validateProjectState (asked.state.installPlan asked.response.output) ≠ []) (s : S) :
    Act.exec handle (commitPlan asked) s =
      (.error (.stateIntegrity "Project state failed validation"), s) := by
  have hassert := assertProjectState_of_not h
  unfold commitPlan
  generalize asked.state.installPlan asked.response.output = state at hassert
  dsimp only
  generalize assertProjectState state = valid at hassert
  subst hassert
  rw [Act.exec_bind, Act.exec_ofExcept]

/-- The rest of the service, once the state is saved. -/
def afterSave (asked : Asked) (answer : Except RuntimeError Nat) : Planning PlanningOutput := do
  let revision ← Act.ofExcept answer
  recordPlan asked revision
  return asked.response.output

theorem exec_commitPlan_accepted (asked : Asked)
    (h : validateProjectState (asked.state.installPlan asked.response.output) = [])
    (c : S × List (Prog.Event PlanningCall PlanningCall.Ans S)) :
    Act.exec (Prog.recording handle) (commitPlan asked) c =
      let save : PlanningCall := .save (asked.state.installPlan asked.response.output)
        (asked.state.installPlan asked.response.output).revision
      Act.exec (Prog.recording handle) (afterSave asked (handle save c.1).1)
        ((handle save c.1).2, ⟨save, (handle save c.1).1, c.1⟩ :: c.2) := by
  have hassert := assertProjectState_of_valid h
  unfold commitPlan
  generalize asked.state.installPlan asked.response.output = state at hassert
  dsimp only
  generalize assertProjectState state = valid at hassert
  subst hassert
  rw [Act.exec_bind, Act.exec_ofExcept]
  dsimp only
  unfold planningCall
  rw [bind_assoc, Act.exec_bind, Act.exec_perform]
  rfl

/-- **What `commitPlan` saves**: the state with the plan, if it is accepted. -/
theorem saves_commitPlan_iff (asked : Asked) (s : S)
    {record : List (Prog.Event PlanningCall PlanningCall.Ans S)} (hnone : ∀ saved, ¬ Saves record saved)
    (saved : ProjectState) :
    Saves (Act.exec (Prog.recording handle) (commitPlan asked) (s, record)).2.2 saved ↔
      saved = asked.state.installPlan asked.response.output ∧ validateProjectState saved = [] := by
  constructor
  · intro hsaves
    have huses := uses_commitPlan asked
    have hcases := saves_cases (m := commitPlan asked) (c := (s, record)) huses hsaves
    have hsaved : saved = asked.state.installPlan asked.response.output :=
      hcases.resolve_right (hnone saved)
    refine ⟨hsaved, ?_⟩
    subst hsaved
    by_contra hinvalid
    -- the check throws before anything is called
    rw [exec_commitPlan_rejected asked hinvalid] at hsaves
    exact hnone _ hsaves
  · rintro ⟨rfl, hvalid⟩
    rw [exec_commitPlan_accepted asked hvalid]
    -- what is saved stays in the record
    refine saves_mono _ ⟨_, List.mem_cons_self, _, rfl⟩

/-- The planner is asked before anything is saved. -/
theorem exec_askPlanner_recording (given : Option ProjectState) (s : S) :
    ∃ record, Act.exec (Prog.recording handle) (askPlanner given) (s, []) =
        ((Act.exec handle (askPlanner given) s).1, (Act.exec handle (askPlanner given) s).2, record) ∧
      ∀ saved, ¬ Saves record saved := by
  obtain ⟨done, hexec, -, -⟩ := Act.exec_recording handle (askPlanner given) s []
  rw [List.append_nil] at hexec
  refine ⟨done, hexec, fun saved hsaves => ?_⟩
  have hcases := saves_cases (m := askPlanner given) (c := (s, []))
    (uses_askPlanner given) (by rw [hexec]; exact hsaves)
  rcases hcases with hnever | ⟨e, he, -⟩
  · exact hnever
  · exact absurd he List.not_mem_nil

/-- **What is saved** once the planner was asked: the state with the plan, if it is accepted. -/
theorem saves_plan_iff {given : Option ProjectState} {s : S} {asked : Asked}
    (hasked : (Act.exec handle (askPlanner given) s).1 = .ok asked) (saved : ProjectState) :
    Saves (Act.exec (Prog.recording handle) (plan given) (s, [])).2.2 saved ↔
      saved = asked.state.installPlan asked.response.output ∧ validateProjectState saved = [] := by
  obtain ⟨record, hexec, hnone⟩ := exec_askPlanner_recording given s
  rw [hasked] at hexec
  unfold plan
  rw [Act.exec_bind, hexec]
  exact saves_commitPlan_iff asked _ hnone saved

/-- **Planning again.** Where the planner is asked about a valid state and its response passes the
checks, with a plan that is consistent in itself, the plan is committed exactly if it can replace
the backlog of the state. -/
theorem replanning_iff {given : Option ProjectState} {s : S} {asked : Asked}
    (hasked : (Act.exec handle (askPlanner given) s).1 = .ok asked)
    (hvalid : validateProjectState asked.state = [])
    (hconsistent : asked.response.output.SelfConsistent) :
    Commits handle given s asked.state ↔ asked.state.Replaceable asked.response.output := by
  have hsaves := saves_plan_iff hasked
  rw [← ProjectState.installPlan_keeps_iff (validateProjectState_eq_nil_iff.mp hvalid) hconsistent,
    ← validateProjectState_eq_nil_iff]
  constructor
  · rintro ⟨saved, hsaved, haccepted, hkeeps⟩
    obtain ⟨rfl, -⟩ := (hsaves saved).mp hsaved
    exact ⟨haccepted, hkeeps⟩
  · rintro ⟨haccepted, hkeeps⟩
    exact ⟨_, (hsaves _).mpr ⟨rfl, haccepted⟩, haccepted, hkeeps⟩

end Run

/-! ### Two plans -/

open ProjectState

/-- A state with one task, which is done. -/
def oneDone : ProjectState :=
  { sampleState [("T-1", { sampleTask "T-1" [] ["The grammar is read"] with status := .done })] with
    execution := { (sampleState []).execution with completedTaskIds := ["T-1"] } }

/-- A plan with the given tasks. -/
def samplePlan (tasks : List (String × BacklogTask)) : PlanningOutput where
  milestone :=
    { id := "M-1", title := "Parser", goal := "Read the input", status := .inProgress
      epicIds := ["E-1"], entryCriteria := [], exitCriteria := [] }
  backlog := sampleBacklog tasks
  summary := "Read the input"
  dependencyEdges :=
    [{ fromId := "M-1", toId := "E-1", type := .contains
       rationale := "Milestone tracks execution for this epic." }]
  assumptions := ["The grammar does not change."]
  risks := []
  mergePreview :=
    { batches := [{ id := "batch-1", taskIds := tasks.map Prod.fst, rationale := "All at once." }]
      notes := [] }

/-- The plan that keeps the task, and one that has another task only. -/
def keepingPlan : PlanningOutput :=
  samplePlan [("T-1", { sampleTask "T-1" [] ["The grammar is read"] with status := .done }),
    ("T-2", sampleTask "T-2" ["T-1"] ["The input is read"])]

def freshPlan : PlanningOutput :=
  samplePlan [("T-2", sampleTask "T-2" [] ["The input is read"])]

def sampleResponse (output : PlanningOutput) : PlannerResponse where
  role := .planner
  summary := "Produced a plan"
  output := output
  confidence := 1

/-- A store with that state, and a planner that answers with the given plan. -/
def sampleHandle (output : PlanningOutput) : (o : PlanningCall) → Unit → o.Ans × Unit
  | .load, s => (.ok oneDone, s)
  | .randomUUID, s => (.ok "id", s)
  | .now, s => (.ok "2026-01-01T00:00:00.000Z", s)
  | .execute .., s => (.ok (sampleResponse output), s)
  | .save _ expectedRevision, s => (.ok (expectedRevision + 1), s)
  | .validate _, s | .recordArtifact .., s | .recordEvent _, s => (.ok (), s)

theorem sampleHandle_asked {output : PlanningOutput}
    (h : Runtime.validateRoleResult (sampleResponse output).checked = .ok ()) :
    (Act.exec (sampleHandle output) (askPlanner none) ()).1 =
      .ok { state := oneDone, promptId := "id", response := sampleResponse output } := by
  change (Act.exec (sampleHandle output)
    (Act.ofExcept (Runtime.validateRoleResult (sampleResponse output).checked) >>= fun _ => pure _)
    ()).1 = _
  rw [h]
  rfl

theorem oneDone_valid : validateProjectState oneDone = [] := by decide

theorem keepingPlan_consistent : keepingPlan.SelfConsistent := by
  have haccepted : validateProjectState (oneDone.installPlan keepingPlan) = [] := by decide
  exact selfConsistent_of_installPlan (validateProjectState_eq_nil_iff.mp haccepted)

theorem freshPlan_consistent : freshPlan.SelfConsistent := by
  have haccepted : validateProjectState ((sampleState []).installPlan freshPlan) = [] := by decide
  exact selfConsistent_of_installPlan (validateProjectState_eq_nil_iff.mp haccepted)

/-- A plan with the done task is committed. -/
theorem replanning_iff_kept : Commits (sampleHandle keepingPlan) none () oneDone := by
  refine (replanning_iff (sampleHandle_asked rfl) oneDone_valid keepingPlan_consistent).mpr
    ⟨fun id task hget hdone => ?_, fun id hid => absurd hid List.not_mem_nil,
      fun id hid => (nomatch hid), fun _ id milestone hget => (nomatch hget)⟩
  have hid : id = "T-1" := by
    have hmem : id ∈ oneDone.backlog.tasks.keys := Dict.mem_keys_of_get? hget
    exact List.mem_singleton.mp hmem
  subst hid
  exact ⟨_, rfl, rfl⟩

/-- A plan without the done task is not committed: the state with it is rejected. -/
theorem history_blocks_plan :
    validateProjectState oneDone = [] ∧ freshPlan.SelfConsistent ∧
      ¬ Commits (sampleHandle freshPlan) none () oneDone ∧
      (Act.exec (sampleHandle freshPlan) (plan none) ()).1 =
        .error (.stateIntegrity "Project state failed validation") := by
  have hrejected : validateProjectState (oneDone.installPlan freshPlan) ≠ [] := by decide
  have hasked : (Act.exec (sampleHandle freshPlan) (askPlanner none) ()).1 =
      .ok { state := oneDone, promptId := "id", response := sampleResponse freshPlan } :=
    sampleHandle_asked rfl
  refine ⟨oneDone_valid, freshPlan_consistent, fun hcommits => ?_, ?_⟩
  · obtain ⟨saved, hsaved, -, -⟩ := hcommits
    obtain ⟨rfl, haccepted⟩ := (saves_plan_iff hasked saved).mp hsaved
    exact hrejected haccepted
  · unfold plan
    rw [Act.exec_bind]
    rcases hexec : Act.exec (sampleHandle freshPlan) (askPlanner none) () with ⟨answer, s⟩
    rw [hexec] at hasked
    dsimp only at hasked
    subst hasked
    dsimp only
    rw [exec_commitPlan_rejected]
    exact hrejected

end PlanningService

end AiOrchestrator
