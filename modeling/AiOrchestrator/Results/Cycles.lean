import AiOrchestrator.Execution.Selection
import AiOrchestrator.Results.Runs

/-!
# Cycles

What holds of every cycle of an orchestrator, from before its load to after its clean-up. A
cycle handles an executable task of the state that it loaded, or none, where the task
manager's answers are executable (`handles_executable`).
-/

namespace AiOrchestrator

namespace Runtime

/-! ### Cycles of a small orchestrator -/

/-- An orchestrator with a task manager of its own. -/
def replacingRuntime : Runtime := { sampleRuntime with replacesTaskManager := true }

/-- Answers under which the lease is acquired, the task manager answers `choice`, and the
prompt engineer fails. -/
def cycleAnswer (choice : Option (String × BacklogTask)) (o : Op) (w : World) : Answer :=
  { sampleAnswer "main" o w with
    fault :=
      match o with
      | .executeRole .promptEngineer _ _ => some (.plain "The model is not available")
      | _ => none
    flag :=
      match o with
      | .acquireRunLease => true
      | _ => false
    text := "main"
    response := fun name =>
      match name with
      | .taskManager =>
        { role := .taskManager, summary := "Done", output := choice, payload := .null
          confidence := 1 }
      | name =>
        { role := name, summary := "Done", output := sampleOutput name, payload := .null
          confidence := 1 } }

/-- A handler with these answers. -/
def cycleHandle (choice : Option (String × BacklogTask)) (o : Op) (w : World) : o.Ans × World :=
  Op.handle sampleHost (cycleAnswer choice o w) o w

/-- A cycle with its record. -/
def observedCycle (rt : Runtime) (choice : Option (String × BacklogTask)) (state : ProjectState) :
    Except RuntimeError RunCycleResult × Observed :=
  Prog.exec (Prog.recording (cycleHandle choice)) (rt.runCycle {}).run (sampleWorld state, [])

theorem observedCycle_path (rt : Runtime) (hrt : rt.host = sampleHost)
    (choice : Option (String × BacklogTask)) (state : ProjectState) :
    Prog.Path (Prog.recorded (Op.effect rt.host))
      ((rt.runCycle {}).run, (sampleWorld state, []))
      (.ret (observedCycle rt choice state).1, (observedCycle rt choice state).2) :=
  Prog.path_recording
    (fun o w => hrt ▸ Op.effect_handle sampleHost (cycleAnswer choice o w) o w) _ _

/-! ### Only executable tasks are handled -/

/-- **Only executable tasks run**: in every cycle, whatever its operations answer and other
clients store, an operation that handles a task is about the task that the cycle has chosen:
an executable task of the backlog that it loaded. The answers of the task manager before it are
nothing or executable. -/
theorem handles_executable (rt : Runtime) (options : RunCycleOptions) {w : World}
    {q : Prog Op Op.Ans (Except RuntimeError RunCycleResult)} {c : Observed}
    (hrun : Prog.Path (Prog.recorded (Op.effect rt.host)) ((rt.runCycle options).run, (w, []))
      (q, c))
    {later earlier : List RunEvent} {e : RunEvent} (hrecord : c.2 = later ++ e :: earlier)
    (hhandles : e.op.handlesTask) (hchoice : ChoiceExecutable earlier) :
    ∃ state key task, Chosen earlier state key task ∧ e.op.About task := by
  have hspec := @runCycle_spec rt options (w, []) fun _ h => absurd h List.not_mem_nil
  obtain ⟨events, hevents, hall⟩ := Prog.wp_events rfl hspec hrun
  rw [List.append_nil] at hevents
  have hallowed := hall later e earlier (hevents.symm.trans hrecord)
  rw [List.append_nil] at hallowed
  exact hallowed hhandles hchoice

/-- The task that a role is called about in an event of a record. -/
def calledAbout (record : List RunEvent) (i : Nat) : Option BacklogTask :=
  record[i]?.bind fun e => e.op.task?

/-- A call about a task, as a split of the record. -/
theorem split_of_calledAbout {record : List RunEvent} {i : Nat} {task : BacklogTask}
    (h : calledAbout record i = some task) :
    ∃ later e, record = later ++ e :: record.drop (i + 1) ∧ e.op.task? = some task := by
  obtain ⟨e, he, htask⟩ := Option.bind_eq_some_iff.mp h
  exact ⟨record.take i, e, split_of_getElem? he, htask⟩

/-- Whether a response of the task manager is executable. -/
def choiceAdmitted : Response → Bool
  | ⟨.taskManager, .select state, response⟩ =>
    match response.output with
    | none => true
    | some entry => (executableEntries state).contains entry
  | _ => true

theorem choiceExecutable_of_admitted {record : List RunEvent}
    (h : (responses record).all choiceAdmitted = true) : ChoiceExecutable record := by
  intro state response hmem key task hout
  have hadmitted := List.all_eq_true.mp h _ hmem
  simp only [choiceAdmitted, hout] at hadmitted
  exact mem_executableEntries.mp (List.contains_iff_mem.mp hadmitted)

/-- The project after its one task was completed. -/
def doneProject : ProjectState := ProjectState.oneTask.completeTask ProjectState.oneTaskHandle

/-- What the records of two cycles show whose task manager answers the one task: of a project where
it is executable, and of one where it is done. -/
theorem observedCycle_records :
    (calledAbout (observedCycle replacingRuntime (some ("T-1", ProjectState.oneTaskHandle.task))
        ProjectState.oneTask).2.2 12 = some ProjectState.oneTaskHandle.task ∧
      (responses ((observedCycle replacingRuntime (some ("T-1", ProjectState.oneTaskHandle.task))
        ProjectState.oneTask).2.2.drop (12 + 1))).all choiceAdmitted = true) ∧
    calledAbout (observedCycle replacingRuntime (some ("T-1", ProjectState.oneTaskHandle.task))
        doneProject).2.2 12 = some ProjectState.oneTaskHandle.task ∧
      (loadedState ((observedCycle replacingRuntime (some ("T-1", ProjectState.oneTaskHandle.task))
        doneProject).2.2.drop (12 + 1))).map executableEntries = some [] := by
  decide +kernel

/-- A task manager answers the executable task: a role is called about it. -/
theorem handles_executable_choice :
    ∃ earlier state key task, Chosen earlier state key task ∧
      task = ProjectState.oneTaskHandle.task := by
  obtain ⟨hcalled, hadmitted⟩ := observedCycle_records.1
  obtain ⟨later, e, hsplit, htask⟩ := split_of_calledAbout hcalled
  obtain ⟨state, key, task, hchosen, habout⟩ :=
    handles_executable replacingRuntime {} (observedCycle_path replacingRuntime rfl _ _) hsplit
      (.inr (htask ▸ rfl)) (choiceExecutable_of_admitted hadmitted)
  exact ⟨_, state, key, task, hchosen, (habout _ htask).symm⟩

/-- A task manager answers a task that is done: a worktree is added and a role is called about
it, although no task of the state that the cycle loaded is executable. -/
theorem handles_done_task :
    let record :=
      (observedCycle replacingRuntime (some ("T-1", ProjectState.oneTaskHandle.task)) doneProject).2.2
    ∃ later e, record = later ++ e :: record.drop (12 + 1) ∧ e.op.handlesTask ∧
      ¬ ∃ state key task, Chosen (record.drop (12 + 1)) state key task ∧ e.op.About task := by
  have hrecord := observedCycle_records.2
  intro record
  obtain ⟨later, e, hsplit, htask⟩ := split_of_calledAbout hrecord.1
  refine ⟨later, e, hsplit, .inr (htask ▸ rfl), ?_⟩
  rintro ⟨state, key, task, hchosen, -⟩
  have hloaded := hrecord.2
  rw [hchosen.loaded] at hloaded
  have hmem := mem_executableEntries.mpr hchosen.executable
  rw [Option.some.inj hloaded] at hmem
  exact absurd hmem List.not_mem_nil

end Runtime

end AiOrchestrator
