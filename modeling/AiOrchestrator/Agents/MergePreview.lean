import AiOrchestrator.Core.Errors
import AiOrchestrator.Lib.Layers

/-!
# The merge preview of a plan

`buildMergePreview` of `packages/agents/src/default-roles.ts`: the tasks of a plan in batches,
each of the tasks whose dependencies are in the batches before; what is left when no task is
ready goes into a fallback batch.

The batches are the layers of the dependency graph of the tasks (`Lib.Layers`). `MergeInv` is
the invariant of the loop, and `MergePreviewCorrect` what holds in the end, for any map of tasks
under their ids.
-/

namespace AiOrchestrator

structure PlanningMergeBatch where
  id : String
  taskIds : List String
  rationale : String
deriving DecidableEq

structure PlanningMergePreview where
  batches : List PlanningMergeBatch
  notes : List String
deriving DecidableEq

/-- The rationale of a batch whose dependencies are in the batches before. -/
def regularRationale : String :=
  "Dependencies for this batch are satisfied by completed or prior batches."

/-- The rationale of the fallback batch. -/
def fallbackRationale : String :=
  "Fallback batch: cyclic or unresolved dependencies require manual review."

/-- `ids.sort((left, right) => left.localeCompare(right))`. -/
def sortIds (host : Host) (ids : List String) : List String :=
  ids.insertionSort fun left right => host.localeCompare left right ≠ .gt

/-- The ids of the tasks whose dependencies are completed. -/
def readyTaskIds (host : Host) (remaining : Record BacklogTask) (completed : List String) :
    List String :=
  sortIds host ((remaining.values.filter fun task =>
    task.dependsOn.all fun dependency => completed.contains dependency).map BacklogTask.id)

/-- A further batch. -/
def PlanningMergePreview.push (preview : PlanningMergePreview) (taskIds : List String)
    (rationale : String) : PlanningMergePreview :=
  { preview with
    batches := preview.batches ++
      [{ id := s!"batch-{preview.batches.length + 1}", taskIds, rationale }] }

/-- The fallback batch and its note. -/
def PlanningMergePreview.pushFallback (preview : PlanningMergePreview) (taskIds : List String) :
    PlanningMergePreview :=
  { preview.push taskIds fallbackRationale with
    notes := preview.notes ++
      ["Fallback batch created for unresolved dependency graph: " ++ ", ".intercalate taskIds ++
        "."] }

/-- The loop of `buildMergePreview`, for a number of rounds; nothing where these do not do. -/
def mergeLoop (host : Host) : Nat → Record BacklogTask → List String → PlanningMergePreview →
    Option PlanningMergePreview
  | rounds, remaining, completed, preview =>
    if remaining.entries = [] then some preview
    else
      match readyTaskIds host remaining completed with
      | [] => some (preview.pushFallback (sortIds host remaining.keys))
      | first :: others =>
        match rounds with
        | 0 => none
        | rounds + 1 =>
          mergeLoop host rounds ((first :: others).foldl Dict.erase remaining)
            (completed ++ first :: others) (preview.push (first :: others) regularRationale)

/-- **`buildMergePreview`**. No more rounds are needed than there are tasks. -/
def buildMergePreview (host : Host) (tasks : Record BacklogTask) : Option PlanningMergePreview :=
  mergeLoop host tasks.values.length
    (Dict.ofList (tasks.values.map fun task => (task.id, task))) []
    { batches := []
      notes :=
        ["Batches are ordered to honor task dependency edges.",
          "Each batch can be reviewed independently to reduce merge risk."] }

/-! ### The dependency graph of the tasks -/

/-- The dependencies of the task with an id. -/
def dependenciesOf (tasks : Record BacklogTask) (id : String) : List String :=
  match tasks.get? id with
  | some task => task.dependsOn
  | none => []

/-- An id from which one comes, along the dependencies, to a cycle or to an id that no task
has. -/
def Unresolvable (tasks : Record BacklogTask) (id : String) : Prop :=
  ∃ other, Relation.ReflTransGen (DepGraph.DependsOn (dependenciesOf tasks)) id other ∧
    (other ∉ tasks.keys ∨ Relation.TransGen (DepGraph.DependsOn (dependenciesOf tasks)) other other)

namespace PlanningMergePreview

/-- The ids of the batches, in order. -/
def layers (preview : PlanningMergePreview) : List (List String) :=
  preview.batches.map PlanningMergeBatch.taskIds

end PlanningMergePreview

/-- **What a merge preview shows of a map of tasks**: all tasks in one batch each; for the tasks
of a regular batch all dependencies in earlier batches, and not all of them in the batches
before any earlier one; and in the fallback batch, which there is only if it has tasks, those
from which one comes to a cycle or to a missing id. -/
structure MergePreviewCorrect (tasks : Record BacklogTask) (preview : PlanningMergePreview) :
    Prop where
  placed : preview.layers.flatten.Perm tasks.keys
  regular : ∀ i batch, preview.batches[i]? = some batch → batch.rationale ≠ fallbackRationale →
    ∀ id ∈ batch.taskIds,
      (∀ dependency ∈ dependenciesOf tasks id,
        ∃ j < i, DepGraph.PlacedAt preview.layers j dependency) ∧
      ∀ k < i, ∃ dependency ∈ dependenciesOf tasks id,
        ∀ j < k, ¬ DepGraph.PlacedAt preview.layers j dependency
  fallback_iff : (∃ batch ∈ preview.batches, batch.rationale = fallbackRationale) ↔
    ∃ id ∈ tasks.keys, Unresolvable tasks id
  fallback_exact : ∀ batch ∈ preview.batches, batch.rationale = fallbackRationale →
    ∀ id, id ∈ batch.taskIds ↔ id ∈ tasks.keys ∧ Unresolvable tasks id

theorem mem_sortIds {host : Host} {ids : List String} {id : String} :
    id ∈ sortIds host ids ↔ id ∈ ids :=
  List.mem_insertionSort _

theorem perm_sortIds (host : Host) (ids : List String) : (sortIds host ids).Perm ids :=
  List.perm_insertionSort _ _

/-! ### The loop -/

/-- **The invariant of the loop.** -/
structure MergeInv (tasks remaining : Record BacklogTask) (completed : List String)
    (preview : PlanningMergePreview) : Prop where
  split : (preview.layers.flatten ++ remaining.keys).Perm tasks.keys
  remains : ∀ id task, remaining.get? id = some task → tasks.get? id = some task ∧ task.id = id
  completed_iff : ∀ id, id ∈ completed ↔ id ∈ preview.layers.flatten
  layered : DepGraph.Layered (dependenciesOf tasks) preview.layers
  waiting : ∀ id ∈ remaining.keys, DepGraph.Waiting (dependenciesOf tasks) preview.layers id
  regular : ∀ batch ∈ preview.batches, batch.rationale = regularRationale

theorem layers_push (preview : PlanningMergePreview) (taskIds : List String) (rationale : String) :
    (preview.push taskIds rationale).layers = preview.layers ++ [taskIds] := by
  simp [PlanningMergePreview.push, PlanningMergePreview.layers]

section Loop

variable {host : Host} {tasks remaining : Record BacklogTask} {completed : List String}
  {preview : PlanningMergePreview}

theorem MergeInv.dependenciesOf_eq (h : MergeInv tasks remaining completed preview) {id : String}
    {task : BacklogTask} (hget : remaining.get? id = some task) :
    dependenciesOf tasks id = task.dependsOn := by
  rw [dependenciesOf, (h.remains id task hget).1]

/-- The ready ids are the remaining ones whose dependencies are in the batches so far. -/
theorem MergeInv.mem_readyTaskIds (h : MergeInv tasks remaining completed preview) {id : String} :
    id ∈ readyTaskIds host remaining completed ↔
      id ∈ remaining.keys ∧
        ∀ dependency ∈ dependenciesOf tasks id, dependency ∈ preview.layers.flatten := by
  rw [readyTaskIds, mem_sortIds, List.mem_map]
  constructor
  · rintro ⟨task, hfilter, rfl⟩
    obtain ⟨hmem, hready⟩ := List.mem_filter.mp hfilter
    obtain ⟨key, hget⟩ := Dict.mem_values_iff.mp hmem
    have hid := (h.remains key task hget).2
    subst hid
    refine ⟨Dict.mem_keys_of_get? hget, fun dependency hdependency => ?_⟩
    rw [h.dependenciesOf_eq hget] at hdependency
    have hcompleted := List.all_eq_true.mp hready dependency hdependency
    exact (h.completed_iff dependency).mp (by simpa using hcompleted)
  · rintro ⟨hkey, hplaced⟩
    obtain ⟨task, hget⟩ := Dict.exists_get?_iff.mpr hkey
    refine ⟨task, List.mem_filter.mpr ⟨Dict.mem_values_of_get? hget, ?_⟩,
      (h.remains id task hget).2⟩
    rw [List.all_eq_true]
    intro dependency hdependency
    rw [← h.dependenciesOf_eq hget] at hdependency
    have hcompleted := (h.completed_iff dependency).mpr (hplaced dependency hdependency)
    simpa using hcompleted

theorem keys_foldl_erase (ids : List String) (record : Record BacklogTask) :
    (ids.foldl Dict.erase record).keys = record.keys.filter (· ∉ ids) := by
  induction ids generalizing record with
  | nil => simp
  | cons id ids ih =>
    rw [List.foldl_cons, ih]
    have herase : (record.erase id).keys = record.keys.filter (· ≠ id) := by
      rw [Dict.keys, Dict.erase, Dict.keys, List.filter_map]
      rfl
    rw [herase, List.filter_filter]
    congr 1
    funext key
    simp [not_or, Bool.and_comm]

theorem get?_foldl_erase {ids : List String} {record : Record BacklogTask} {id : String}
    {task : BacklogTask} (h : (ids.foldl Dict.erase record).get? id = some task) :
    record.get? id = some task := by
  induction ids generalizing record with
  | nil => exact h
  | cons first ids ih =>
    have hrest := ih h
    rw [Dict.get?_erase] at hrest
    split at hrest
    · cases hrest
    · exact hrest

/-- The remaining tasks are stored under their ids. -/
theorem MergeInv.ids_eq_keys (h : MergeInv tasks remaining completed preview) :
    remaining.values.map BacklogTask.id = remaining.keys := by
  rw [Dict.values, Dict.keys, List.map_map]
  refine List.map_congr_left fun entry hentry => ?_
  exact (h.remains entry.1 entry.2 (Dict.get?_eq_some_iff.mpr hentry)).2

theorem MergeInv.nodup_readyTaskIds (h : MergeInv tasks remaining completed preview) :
    (readyTaskIds host remaining completed).Nodup := by
  have hids : (remaining.values.map BacklogTask.id).Nodup := by
    rw [h.ids_eq_keys]
    exact remaining.nodup_keys
  refine (perm_sortIds host _).nodup_iff.mpr ?_
  exact hids.sublist (List.filter_sublist.map BacklogTask.id)

/-- **A round**: the ready tasks become a batch. -/
theorem MergeInv.round (h : MergeInv tasks remaining completed preview) {ready : List String}
    (hready : readyTaskIds host remaining completed = ready) :
    MergeInv tasks (ready.foldl Dict.erase remaining) (completed ++ ready)
      (preview.push ready regularRationale) := by
  have hmem : ∀ id, id ∈ ready ↔ id ∈ remaining.keys ∧
      ∀ dependency ∈ dependenciesOf tasks id, dependency ∈ preview.layers.flatten := by
    intro id
    rw [← hready]
    exact h.mem_readyTaskIds
  have hnodup : ready.Nodup := hready ▸ h.nodup_readyTaskIds
  have hparts : (ready ++ remaining.keys.filter (· ∉ ready)).Perm remaining.keys := by
    have htaken : ready.Perm (remaining.keys.filter (· ∈ ready)) := by
      refine (List.perm_ext_iff_of_nodup hnodup (remaining.nodup_keys.filter _)).mpr fun id => ?_
      rw [List.mem_filter, decide_eq_true_eq]
      exact ⟨fun hid => ⟨((hmem id).mp hid).1, hid⟩, And.right⟩
    have hleft := List.filter_append_perm (fun id => decide (id ∈ ready)) remaining.keys
    refine (htaken.append_right _).trans ?_
    simpa using hleft
  refine ⟨?_, ?_, ?_, ?_, ?_, ?_⟩
  · rw [layers_push, keys_foldl_erase, List.flatten_append, List.flatten_singleton,
      List.append_assoc]
    exact (hparts.append_left _).trans h.split
  · intro id task hget
    exact h.remains id task (get?_foldl_erase hget)
  · intro id
    rw [layers_push, List.mem_append, h.completed_iff, List.flatten_append, List.mem_append,
      List.flatten_singleton]
  · rw [layers_push]
    exact h.layered.concat (fun id hid => ((hmem id).mp hid).2) fun id hid =>
      h.waiting id ((hmem id).mp hid).1
  · intro id hid
    rw [keys_foldl_erase, List.mem_filter, decide_eq_true_eq] at hid
    rw [layers_push]
    refine (h.waiting id hid.1).concat ready ?_
    by_contra hall
    push Not at hall
    exact hid.2 ((hmem id).mpr ⟨hid.1, hall⟩)
  · intro batch hbatch
    rcases List.mem_append.mp hbatch with hold | hnew
    · exact h.regular batch hold
    · rw [List.mem_singleton.mp hnew]

/-! ### The end of the loop -/

theorem regularRationale_ne : regularRationale ≠ fallbackRationale := by decide

/-- A placed id is resolvable: what it depends on is placed, and there is no cycle. -/
theorem MergeInv.not_unresolvable (h : MergeInv tasks remaining completed preview) {id : String}
    (hid : id ∈ preview.layers.flatten) : ¬ Unresolvable tasks id := by
  rintro ⟨other, hreach, hexit⟩
  obtain ⟨hplaced, hacyclic⟩ := h.layered.not_unresolvable hid hreach
  rcases hexit with hmissing | hcycle
  · exact hmissing (h.split.subset (List.mem_append_left _ hplaced))
  · exact hacyclic hcycle

/-- What the layers say of a batch. -/
theorem MergeInv.regular_batch (h : MergeInv tasks remaining completed preview) {i : Nat}
    {batch : PlanningMergeBatch} (hbatch : preview.batches[i]? = some batch) {id : String}
    (hid : id ∈ batch.taskIds) :
    (∀ dependency ∈ dependenciesOf tasks id,
      ∃ j < i, DepGraph.PlacedAt preview.layers j dependency) ∧
    ∀ k < i, ∃ dependency ∈ dependenciesOf tasks id,
      ∀ j < k, ¬ DepGraph.PlacedAt preview.layers j dependency := by
  have hplaced : DepGraph.PlacedAt preview.layers i id :=
    ⟨batch.taskIds, by rw [PlanningMergePreview.layers, List.getElem?_map, hbatch]; rfl, hid⟩
  obtain ⟨hbefore, hearliest⟩ := h.layered i id hplaced
  refine ⟨fun dependency hdependency => ?_, fun k hk => ?_⟩
  · exact DepGraph.mem_flatten_take_iff.mp (hbefore dependency hdependency)
  · obtain ⟨dependency, hdependency, hnot⟩ := hearliest k hk
    refine ⟨dependency, hdependency, fun j hj hplaced => hnot ?_⟩
    exact DepGraph.mem_flatten_take_iff.mpr ⟨j, hj, hplaced⟩

/-- **No task is left.** -/
theorem MergeInv.correct_of_done (h : MergeInv tasks remaining completed preview)
    (hdone : remaining.entries = []) : MergePreviewCorrect tasks preview := by
  have hkeys : remaining.keys = [] := by
    rw [Dict.keys, hdone]
    rfl
  have hplaced := h.split
  rw [hkeys, List.append_nil] at hplaced
  have hregular : ∀ batch ∈ preview.batches, batch.rationale ≠ fallbackRationale :=
    fun batch hbatch => by
      rw [h.regular batch hbatch]
      exact regularRationale_ne
  refine ⟨hplaced, fun i batch hbatch _ id hid => h.regular_batch hbatch hid, ?_, ?_⟩
  · constructor
    · rintro ⟨batch, hbatch, hfallback⟩
      exact absurd hfallback (hregular batch hbatch)
    · rintro ⟨id, hid, hunresolvable⟩
      exact absurd hunresolvable (h.not_unresolvable (hplaced.mem_iff.mpr hid))
  · intro batch hbatch hfallback
    exact absurd hfallback (hregular batch hbatch)

/-- **No task is ready**: the remaining ones are those that cannot be resolved. -/
theorem MergeInv.mem_remaining_iff (h : MergeInv tasks remaining completed preview)
    (hstuck : readyTaskIds host remaining completed = []) (id : String) :
    id ∈ remaining.keys ↔ id ∈ tasks.keys ∧ Unresolvable tasks id := by
  constructor
  · intro hid
    refine ⟨h.split.subset (List.mem_append_right _ hid), ?_⟩
    refine DepGraph.exists_cycle_or_exit remaining.keys (fun a ha => ?_) hid
    -- a task that is not ready has a dependency that is missing or remains as well
    have hnot : a ∉ readyTaskIds host remaining completed := by
      rw [hstuck]
      exact List.not_mem_nil
    rw [h.mem_readyTaskIds] at hnot
    push Not at hnot
    obtain ⟨dependency, hdependency, hmissing⟩ := hnot ha
    refine ⟨dependency, hdependency, ?_⟩
    by_cases hkey : dependency ∈ tasks.keys
    · rcases List.mem_append.mp (h.split.mem_iff.mpr hkey) with hplaced | hremains
      · exact absurd hplaced hmissing
      · exact Or.inl hremains
    · exact Or.inr hkey
  · rintro ⟨hkey, hunresolvable⟩
    rcases List.mem_append.mp (h.split.mem_iff.mpr hkey) with hplaced | hremains
    · exact absurd hunresolvable (h.not_unresolvable hplaced)
    · exact hremains

theorem MergeInv.correct_of_stuck (h : MergeInv tasks remaining completed preview)
    (hsome : remaining.entries ≠ []) (hstuck : readyTaskIds host remaining completed = []) :
    MergePreviewCorrect tasks (preview.pushFallback (sortIds host remaining.keys)) := by
  have hlayers : (preview.pushFallback (sortIds host remaining.keys)).layers =
      preview.layers ++ [sortIds host remaining.keys] := layers_push _ _ fallbackRationale
  have hbatches : (preview.pushFallback (sortIds host remaining.keys)).batches =
      preview.batches ++
        [{ id := s!"batch-{preview.batches.length + 1}"
           taskIds := sortIds host remaining.keys
           rationale := fallbackRationale }] := rfl
  have hsame : ∀ batch ∈ (preview.pushFallback (sortIds host remaining.keys)).batches,
      batch.rationale = fallbackRationale → batch.taskIds = sortIds host remaining.keys := by
    intro batch hbatch hfallback
    rw [hbatches] at hbatch
    rcases List.mem_append.mp hbatch with hold | hnew
    · rw [h.regular batch hold] at hfallback
      exact absurd hfallback regularRationale_ne
    · rw [List.mem_singleton.mp hnew]
  have hplacedAt : ∀ j < preview.batches.length, ∀ id,
      DepGraph.PlacedAt (preview.layers ++ [sortIds host remaining.keys]) j id ↔
        DepGraph.PlacedAt preview.layers j id := by
    intro j hj id
    unfold DepGraph.PlacedAt
    rw [List.getElem?_append_left (by rw [PlanningMergePreview.layers, List.length_map]; exact hj)]
  refine ⟨?_, ?_, ?_, ?_⟩
  · rw [hlayers, List.flatten_append, List.flatten_singleton]
    exact ((perm_sortIds host _).append_left _).trans h.split
  · intro i batch hbatch hregular id hid
    rw [hbatches] at hbatch
    rcases Nat.lt_or_ge i preview.batches.length with hlt | hge
    · rw [List.getElem?_append_left hlt] at hbatch
      obtain ⟨hbefore, hearliest⟩ := h.regular_batch hbatch hid
      rw [hlayers]
      refine ⟨fun dependency hdependency => ?_, fun k hk => ?_⟩
      · obtain ⟨j, hj, hplaced⟩ := hbefore dependency hdependency
        exact ⟨j, hj, (hplacedAt j (hj.trans hlt) dependency).mpr hplaced⟩
      · obtain ⟨dependency, hdependency, hnot⟩ := hearliest k hk
        refine ⟨dependency, hdependency, fun j hj hplaced => hnot j hj ?_⟩
        exact (hplacedAt j (by omega) dependency).mp hplaced
    · have hmem := List.mem_of_getElem? hbatch
      rw [List.getElem?_append_right hge] at hbatch
      have hlast := List.mem_singleton.mp (List.mem_of_getElem? hbatch)
      rw [hlast] at hregular
      exact absurd rfl hregular
  · obtain ⟨⟨id, task⟩, rest, hentries⟩ := List.exists_cons_of_ne_nil hsome
    have hid : id ∈ remaining.keys := by
      rw [Dict.keys, hentries]
      exact List.mem_cons_self
    refine ⟨fun _ => ⟨id, (h.mem_remaining_iff hstuck id).mp hid⟩, fun _ => ?_⟩
    rw [hbatches]
    exact ⟨_, List.mem_append_right _ (List.mem_singleton_self _), rfl⟩
  · intro batch hbatch hfallback id
    rw [hsame batch hbatch hfallback, mem_sortIds]
    exact h.mem_remaining_iff hstuck id

/-- **The loop ends** in as many rounds as there are tasks left, with a correct preview. -/
theorem mergeLoop_correct (rounds : Nat) (h : MergeInv tasks remaining completed preview)
    (hrounds : remaining.keys.length ≤ rounds) :
    ∃ result, mergeLoop host rounds remaining completed preview = some result ∧
      MergePreviewCorrect tasks result := by
  induction rounds generalizing remaining completed preview with
  | zero =>
    have hdone : remaining.entries = [] := by
      rw [Dict.keys, List.length_map] at hrounds
      exact List.length_eq_zero_iff.mp (by omega)
    refine ⟨preview, ?_, h.correct_of_done hdone⟩
    rw [mergeLoop, if_pos hdone]
  | succ rounds ih =>
    by_cases hdone : remaining.entries = []
    · refine ⟨preview, ?_, h.correct_of_done hdone⟩
      rw [mergeLoop, if_pos hdone]
    · cases hready : readyTaskIds host remaining completed with
      | nil =>
        refine ⟨_, ?_, h.correct_of_stuck hdone hready⟩
        rw [mergeLoop, if_neg hdone, hready]
      | cons first others =>
        have hround := h.round hready
        have hfirst : first ∈ remaining.keys := by
          have hmem : first ∈ readyTaskIds host remaining completed := by
            rw [hready]
            exact List.mem_cons_self
          exact (h.mem_readyTaskIds.mp hmem).1
        have hfewer : ((first :: others).foldl Dict.erase remaining).keys.length ≤ rounds := by
          rw [keys_foldl_erase]
          have hlt : (remaining.keys.filter (· ∉ first :: others)).length <
              remaining.keys.length :=
            List.length_filter_lt_length_iff_exists.mpr ⟨first, hfirst, by simp⟩
          omega
        obtain ⟨result, hresult, hcorrect⟩ := ih hround hfewer
        refine ⟨result, ?_, hcorrect⟩
        rw [mergeLoop, if_neg hdone, hready]
        exact hresult

/-! ### The start -/

/-- Tasks stored under their ids are stored again as they are. -/
theorem remaining_eq (hkeys : ∀ key task, tasks.get? key = some task → task.id = key) :
    Dict.ofList (tasks.values.map fun task => (task.id, task)) = tasks := by
  have hentries : tasks.values.map (fun task => (task.id, task)) = tasks.entries := by
    rw [Dict.values, List.map_map]
    conv_rhs => rw [← List.map_id tasks.entries]
    refine List.map_congr_left fun entry hentry => ?_
    have hid := hkeys entry.1 entry.2 (Dict.get?_eq_some_iff.mpr hentry)
    show (entry.2.id, entry.2) = entry
    rw [hid]
  refine Dict.ext_entries ?_
  rw [hentries, Dict.entries_ofList tasks.nodup]

theorem MergeInv.start (hkeys : ∀ key task, tasks.get? key = some task → task.id = key)
    (notes : List String) : MergeInv tasks tasks [] { batches := [], notes } where
  split := List.Perm.refl _
  remains id task hget := ⟨hget, hkeys id task hget⟩
  completed_iff _ := Iff.rfl
  layered := DepGraph.layered_nil
  waiting id _ := DepGraph.waiting_nil id
  regular _ hbatch := absurd hbatch List.not_mem_nil

end Loop

end AiOrchestrator
