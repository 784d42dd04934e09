import AiOrchestrator.Agents.MergePreview
import AiOrchestrator.Results.Backlog
import AiOrchestrator.Workflow.TaskOrder

/-!
# The order of the tasks

Two orders in which the program puts tasks: the selection of the next task takes the executable
one that comes before all others, as long as the retry counts are numbers
(`selectNextTask_first_iff`), and the merge preview of a plan puts the tasks in batches along their
dependencies (`buildMergePreview_correct`).
-/

namespace AiOrchestrator

/-! ### Selection -/

namespace ProjectState

/-- **The promise of the selection**: the selected task is executable and precedes every other
executable one, and it is the same for every order in which tasks and ids are stored. -/
structure SelectsFirst (host : Host) (state : ProjectState) : Prop where
  first : ∀ task, selectNextTask host state = some task → state.Selectable task ∧
    ∀ other, state.Selectable other → other ≠ task → task.Precedes host state other
  independent : ∀ state', state.Reordered state' →
    selectNextTask host state' = selectNextTask host state

end ProjectState

/-- **The selection of a task**, where `localeCompare` is a total order and no two tasks have one
id: some task is selected when one is executable, and it is the first one, in whatever order tasks
and ids are stored, exactly if the retries of the foremost tasks can be compared. -/
theorem selectNextTask_first_iff (host : Host) [Std.TransCmp host.localeCompare]
    [Std.LawfulEqCmp host.localeCompare] (state : ProjectState)
    (hdistinct : (state.backlog.tasks.values.map BacklogTask.id).Nodup) :
    ((∃ task, selectNextTask host state = some task) ↔ ∃ task, state.Selectable task) ∧
      (state.SelectsFirst host ↔ state.RetriesComparable) := by
  refine ⟨exists_selectNextTask_iff, fun h => ?_, fun h => ?_⟩
  · exact retriesComparable_of_independent h.independent
  · exact
      { first := fun _ hselect => ⟨selectable_of_selectNextTask hselect, fun _ hother hne =>
          precedes_of_selectNextTask hdistinct h hselect hother hne⟩
        independent := fun _ hreordered => selectNextTask_reordered hdistinct h hreordered }

/-- A platform that compares ids by their code points. -/
def codePointHost : Host where
  sha256Hex := fun _ => "digest"
  localeCompare := fun a b => compare a b
  stringify := fun _ => "{}"
  tokenCost := fun _ _ => 0

instance : Std.TransCmp codePointHost.localeCompare :=
  inferInstanceAs (Std.TransCmp fun a b : String => compare a b)

instance : Std.LawfulEqCmp codePointHost.localeCompare :=
  inferInstanceAs (Std.LawfulEqCmp fun a b : String => compare a b)

namespace ProjectState

/-- A project of the given tasks, of which `T-2` has failed once. -/
def retriedState (tasks : List (String × BacklogTask)) : ProjectState :=
  { sampleState tasks with
    execution := { (sampleState tasks).execution with retryCounts := Dict.ofList [("T-2", 1)] } }

/-- Three tasks of one priority: one that failed before, and two that did not. -/
def retriedTasks : List (String × BacklogTask) :=
  [("T-2", sampleTask "T-2" [] ["The tree is built"]),
    ("T-3", sampleTask "T-3" [] ["The types are checked"]),
    ("T-1", sampleTask "T-1" [] ["The grammar is read"])]

/-- All three have counts. -/
theorem retriedTasks_comparable : (retriedState retriedTasks).RetriesComparable := by
  have hcounted : ∀ task ∈ (retriedState retriedTasks).backlog.tasks.values,
      task.id ∉ inheritedNames := by
    decide
  exact fun task _ htask _ _ _ _ hinherited => absurd hinherited (hcounted task htask.stored)

/-- A task that carries the name of an inherited member, and one that failed before. -/
def inheritedTasks : List (String × BacklogTask) :=
  [("constructor", sampleTask "constructor" [] ["The constructor is resolved"]),
    ("T-2", sampleTask "T-2" [] ["The tree is built"])]

end ProjectState

/-- **Of three tasks of one priority** the first by retries and id is selected, stored in any
order. -/
theorem selectNextTask_first_iff_sample :
    selectNextTask codePointHost (ProjectState.retriedState ProjectState.retriedTasks.reverse) =
      some (ProjectState.sampleTask "T-1" [] ["The grammar is read"]) := by
  have hreordered : (ProjectState.retriedState ProjectState.retriedTasks).Reordered
      (ProjectState.retriedState ProjectState.retriedTasks.reverse) :=
    { tasks := List.reverse_perm ProjectState.retriedTasks
      completed := List.Perm.refl _
      blocked := List.Perm.refl _
      retryCounts := rfl }
  have hfirst := (selectNextTask_first_iff codePointHost _ (by decide)).2.mpr
    ProjectState.retriedTasks_comparable
  rw [hfirst.independent _ hreordered]
  decide

/-- **A task with an inherited name**, which never failed, is selected or not as it is stored
before or behind one that failed. -/
theorem selectNextTask_inherited :
    (ProjectState.retriedState ProjectState.inheritedTasks).Reordered
        (ProjectState.retriedState ProjectState.inheritedTasks.reverse) ∧
      selectNextTask codePointHost (ProjectState.retriedState ProjectState.inheritedTasks) =
        some (ProjectState.sampleTask "constructor" [] ["The constructor is resolved"]) ∧
      selectNextTask codePointHost
          (ProjectState.retriedState ProjectState.inheritedTasks.reverse) =
        some (ProjectState.sampleTask "T-2" [] ["The tree is built"]) ∧
      ¬ (ProjectState.sampleTask "T-2" [] ["The tree is built"]).Precedes codePointHost
        (ProjectState.retriedState ProjectState.inheritedTasks.reverse)
        (ProjectState.sampleTask "constructor" [] ["The constructor is resolved"]) := by
  refine ⟨⟨?_, List.Perm.refl _, List.Perm.refl _, rfl⟩, by decide, by decide, ?_⟩
  · exact List.reverse_perm ProjectState.inheritedTasks
  · rw [← compareCounted_eq_lt_iff]
    decide

/-! ### Batches -/

/-- **The merge preview**, of any tasks stored under their ids: it is there, and it shows the
layers of the dependency graph and what is left of it. -/
theorem buildMergePreview_correct (host : Host) (tasks : Record BacklogTask)
    (hkeys : ∀ key task, tasks.get? key = some task → task.id = key) :
    ∃ preview, buildMergePreview host tasks = some preview ∧ MergePreviewCorrect tasks preview := by
  have hremaining := remaining_eq hkeys
  have hrounds : tasks.keys.length ≤ tasks.values.length := by
    rw [Dict.keys, Dict.values, List.length_map, List.length_map]
  rw [buildMergePreview, hremaining]
  exact mergeLoop_correct _ (MergeInv.start hkeys _) hrounds

/-- A chain of two tasks and a task that waits for itself. -/
theorem buildMergePreview_correct_sample :
    ∃ preview, buildMergePreview codePointHost
        (Dict.ofList [("T-1", ProjectState.sampleTask "T-1" [] []),
          ("T-2", ProjectState.sampleTask "T-2" ["T-1"] []),
          ("T-3", ProjectState.sampleTask "T-3" ["T-3"] [])]) = some preview ∧
      MergePreviewCorrect
        (Dict.ofList [("T-1", ProjectState.sampleTask "T-1" [] []),
          ("T-2", ProjectState.sampleTask "T-2" ["T-1"] []),
          ("T-3", ProjectState.sampleTask "T-3" ["T-3"] [])]) preview := by
  refine buildMergePreview_correct codePointHost _ fun key task hget => ?_
  have hmem := Dict.get?_eq_some_iff.mp hget
  rw [Dict.entries_ofList (by decide)] at hmem
  simp only [List.mem_cons, Prod.mk.injEq, List.not_mem_nil, or_false] at hmem
  rcases hmem with ⟨rfl, rfl⟩ | ⟨rfl, rfl⟩ | ⟨rfl, rfl⟩ <;> rfl

end AiOrchestrator
