import AiOrchestrator.Application.Planning
import AiOrchestrator.Results.Validation

/-!
# Plans

What the planner makes of a list of findings (`PlanSound`): ids under their keys, one task for
each finding, references that resolve both ways, and dependencies without a cycle, whatever the
subsystems are called. The proof carries the plan of the findings so far through the loop
(`Planned`): features and tasks are numbered, so that their ids are new, and an epic has the
features of the findings with its slug.

A fresh state with the plan is accepted unless a finding names the empty text as a module, which
the check of findings lets pass (`planner_correct_iff`).
-/

namespace AiOrchestrator

/-! ### Ids -/

/-- The number of an id is read off its end. -/
theorem index_of_id {front front' : String} {i j : Nat}
    (h : front ++ "-" ++ toString (i + 1) = front' ++ "-" ++ toString (j + 1)) : i = j := by
  have hdash : "-".toList = ['-'] := rfl
  have hdigits : ∀ n : Nat, '-' ∉ (toString n).toList := by
    intro n hmem
    have hdigit := Json.isDigit_of_mem_toString hmem
    exact absurd hdigit (by decide)
  have hlists := congrArg String.toList h
  simp only [String.toList_append, hdash, List.append_assoc, List.singleton_append] at hlists
  have hnumbers := Segments.last_eq_of_append_eq (hdigits _) (hdigits _) hlists
  have hsucc := Json.numberText_toString.injective (String.toList_injective hnumbers)
  exact Nat.succ.inj hsucc

namespace ArchitectureFinding

theorem index_of_taskId {f g : ArchitectureFinding} {i j : Nat}
    (h : f.taskId i = g.taskId j) : i = j := index_of_id h

theorem index_of_featureId {f g : ArchitectureFinding} {i j : Nat}
    (h : f.featureId i = g.featureId j) : i = j := index_of_id h

theorem append_ne_empty {s : String} (h : s ≠ "") (t : String) : s ++ t ≠ "" := by
  intro heq
  have hlists := congrArg String.toList heq
  rw [String.toList_append] at hlists
  exact h (String.toList_eq_nil_iff.mp (List.append_eq_nil_iff.mp hlists).1)

theorem append_ne_empty' (s : String) {t : String} (h : t ≠ "") : s ++ t ≠ "" := by
  intro heq
  have hlists := congrArg String.toList heq
  rw [String.toList_append] at hlists
  exact h (String.toList_eq_nil_iff.mp (List.append_eq_nil_iff.mp hlists).2)

theorem newEpic_texts (finding : ArchitectureFinding) :
    finding.newEpic.title ≠ "" ∧ finding.newEpic.goal ≠ "" :=
  ⟨append_ne_empty' _ (by decide), append_ne_empty' _ (by decide)⟩

end ArchitectureFinding

/-! ### The plan of the findings so far -/

/-- The task before the one with an index. -/
def previousOf (findings : List ArchitectureFinding) : Nat → Option String
  | 0 => none
  | index + 1 => findings[index]?.map fun finding => finding.taskId index

/-- The epic of the findings with its id. -/
structure PlannedEpic (findings : List ArchitectureFinding) (id : String) (epic : Epic) :
    Prop where
  id_eq : epic.id = id
  texts : epic.title ≠ "" ∧ epic.goal ≠ ""
  finding : ∃ finding ∈ findings, finding.epicId = id
  features : ∀ featureId, featureId ∈ epic.featureIds ↔
    ∃ (index : Nat) (finding : ArchitectureFinding), findings[index]? = some finding ∧
      finding.epicId = id ∧ finding.featureId index = featureId

/-- **The plan of a list of findings.** -/
structure Planned (findings : List ArchitectureFinding) (draft : PlanDraft) : Prop where
  previous : draft.previousTaskId = previousOf findings findings.length
  tasks : draft.tasks.entries = findings.mapIdx fun index finding =>
    (finding.taskId index, finding.task index (previousOf findings index))
  features : draft.features.entries = findings.mapIdx fun index finding =>
    (finding.featureId index, finding.feature index)
  epics : ∀ id epic, draft.epicEntries.get? id = some epic → PlannedEpic findings id epic
  epicKeys : ∀ finding ∈ findings, finding.epicId ∈ draft.epicEntries.keys

theorem planFinding_tasks (draft : PlanDraft) (finding : ArchitectureFinding) (index : Nat) :
    (planFinding draft finding index).tasks =
      draft.tasks.set (finding.taskId index) (finding.task index draft.previousTaskId) := rfl

theorem planFinding_features (draft : PlanDraft) (finding : ArchitectureFinding) (index : Nat) :
    (planFinding draft finding index).features =
      draft.features.set (finding.featureId index) (finding.feature index) := rfl

namespace Planned

variable {findings : List ArchitectureFinding} {draft : PlanDraft}

theorem start : Planned [] {} where
  previous := rfl
  tasks := rfl
  features := rfl
  epics _ _ h := by cases h
  epicKeys _ h := absurd h List.not_mem_nil

theorem previousOf_append (more : List ArchitectureFinding) {index : Nat}
    (h : index ≤ findings.length) : previousOf (findings ++ more) index = previousOf findings index := by
  cases index with
  | zero => rfl
  | succ index => rw [previousOf, previousOf, List.getElem?_append_left h]

/-- What holds of some finding and its index after one more finding. -/
theorem exists_concat {P : Nat → ArchitectureFinding → Prop} {finding : ArchitectureFinding} :
    (∃ (index : Nat) (other : ArchitectureFinding),
        (findings ++ [finding])[index]? = some other ∧ P index other) ↔
      (∃ (index : Nat) (other : ArchitectureFinding),
        findings[index]? = some other ∧ P index other) ∨ P findings.length finding := by
  constructor
  · rintro ⟨index, other, hget, hP⟩
    rcases Nat.lt_or_ge index findings.length with hlt | hge
    · rw [List.getElem?_append_left hlt] at hget
      exact Or.inl ⟨index, other, hget, hP⟩
    · rw [List.getElem?_append_right hge, List.getElem?_singleton] at hget
      split at hget
      · next hzero =>
        obtain rfl : index = findings.length := by omega
        cases hget
        exact Or.inr hP
      · cases hget
  · rintro (⟨index, other, hget, hP⟩ | hP)
    · have hlt := (List.getElem?_eq_some_iff.mp hget).1
      exact ⟨index, other, (List.getElem?_append_left hlt).trans hget, hP⟩
    · exact ⟨findings.length, finding, List.getElem?_concat_length .., hP⟩

/-- The epics with one for the finding. -/
def withEpic (epics : Record Epic) (finding : ArchitectureFinding) : Record Epic :=
  if epics.contains finding.epicId then epics else epics.set finding.epicId finding.newEpic

theorem planFinding_epicEntries (draft : PlanDraft) (finding : ArchitectureFinding) (index : Nat) :
    (planFinding draft finding index).epicEntries =
      (withEpic draft.epicEntries finding).modify finding.epicId fun epic =>
        { epic with featureIds := epic.featureIds ++ [finding.featureId index] } := rfl

theorem keys_withEpic (epics : Record Epic) (finding : ArchitectureFinding) (id : String) :
    id ∈ (withEpic epics finding).keys ↔ id = finding.epicId ∨ id ∈ epics.keys := by
  unfold withEpic
  split
  · next h =>
    rw [Dict.contains_iff] at h
    exact ⟨Or.inr, fun hor => hor.elim (fun heq => heq ▸ h) fun hmem => hmem⟩
  · exact Dict.mem_keys_set

/-- An epic of the plan, or the empty one of a finding with a new slug. -/
theorem withEpic_cases (h : Planned findings draft) (finding : ArchitectureFinding) {id : String}
    {epic : Epic} (hget : (withEpic draft.epicEntries finding).get? id = some epic) :
    PlannedEpic findings id epic ∨
      (id = finding.epicId ∧ epic = finding.newEpic ∧ ∀ other ∈ findings, other.epicId ≠ id) := by
  unfold withEpic at hget
  split at hget
  · exact Or.inl (h.epics id epic hget)
  · next hnew =>
    rw [Dict.get?_set] at hget
    split at hget
    · next hid =>
      cases hget
      refine Or.inr ⟨hid, rfl, fun other hother heq => hnew ?_⟩
      rw [Dict.contains_iff, ← hid, ← heq]
      exact h.epicKeys other hother
    · exact Or.inl (h.epics id epic hget)

/-- **The epics** after one more finding. -/
theorem epics_step (h : Planned findings draft) (finding : ArchitectureFinding) (id : String)
    (epic : Epic)
    (hget : (planFinding draft finding findings.length).epicEntries.get? id = some epic) :
    PlannedEpic (findings ++ [finding]) id epic := by
  rw [planFinding_epicEntries, Dict.get?_modify] at hget
  split at hget
  · next hid =>
    subst hid
    -- the epic of the finding gets one more feature
    obtain ⟨old, hold, rfl⟩ := Option.map_eq_some_iff.mp hget
    have hfeatures : ∀ featureId, featureId ∈ old.featureIds ++ [finding.featureId findings.length] ↔
        ∃ (index : Nat) (other : ArchitectureFinding),
          (findings ++ [finding])[index]? = some other ∧ other.epicId = finding.epicId ∧
            other.featureId index = featureId := by
      intro featureId
      rw [exists_concat, List.mem_append, List.mem_singleton]
      refine or_congr ?_ ⟨fun heq => ⟨rfl, heq.symm⟩, fun hand => hand.2.symm⟩
      rcases h.withEpic_cases finding hold with hplanned | ⟨-, rfl, hnone⟩
      · exact hplanned.features featureId
      · refine iff_of_false List.not_mem_nil ?_
        rintro ⟨index, other, hother, hepic, -⟩
        exact hnone other (List.mem_of_getElem? hother) hepic
    refine ⟨?_, ?_, ⟨finding, by simp, rfl⟩, hfeatures⟩
    · rcases h.withEpic_cases finding hold with hplanned | ⟨-, rfl, -⟩
      · exact hplanned.id_eq
      · rfl
    · rcases h.withEpic_cases finding hold with hplanned | ⟨-, rfl, -⟩
      · exact hplanned.texts
      · exact finding.newEpic_texts
  · next hid =>
    rcases h.withEpic_cases finding hget with hplanned | ⟨heq, -, -⟩
    · obtain ⟨other, hother, hepic⟩ := hplanned.finding
      refine ⟨hplanned.id_eq, hplanned.texts, ⟨other, by simp [hother], hepic⟩, fun featureId => ?_⟩
      rw [exists_concat, hplanned.features featureId]
      exact ⟨Or.inl, fun hor => hor.resolve_right fun hand => hid hand.1.symm⟩
    · exact absurd heq hid

theorem epicKeys_step (h : Planned findings draft) (finding : ArchitectureFinding) :
    ∀ other ∈ findings ++ [finding],
      other.epicId ∈ (planFinding draft finding findings.length).epicEntries.keys := by
  intro other hother
  rw [planFinding_epicEntries, Dict.keys_modify, keys_withEpic]
  rcases List.mem_append.mp hother with hold | hnew
  · exact Or.inr (h.epicKeys other hold)
  · exact Or.inl (congrArg _ (List.mem_singleton.mp hnew))

theorem previous_step (draft : PlanDraft) (finding : ArchitectureFinding) :
    (planFinding draft finding findings.length).previousTaskId =
      previousOf (findings ++ [finding]) (findings ++ [finding]).length := by
  rw [List.length_append, List.length_singleton, previousOf, List.getElem?_concat_length]
  rfl

/-- The features after one more finding: their ids are numbered. -/
theorem features_step (h : Planned findings draft) (finding : ArchitectureFinding) :
    (planFinding draft finding findings.length).features.entries =
      (findings ++ [finding]).mapIdx fun index finding =>
        (finding.featureId index, finding.feature index) := by
  have hnew : finding.featureId findings.length ∉ draft.features.keys := by
    intro hmem
    obtain ⟨feature, hentry⟩ := Dict.mem_keys_iff.mp hmem
    rw [h.features] at hentry
    obtain ⟨index, hindex, hpair⟩ := List.mem_mapIdx.mp hentry
    have hid := congrArg Prod.fst hpair
    exact Nat.ne_of_lt hindex (ArchitectureFinding.index_of_featureId hid)
  rw [planFinding_features, Dict.entries_set_of_notMem hnew, h.features, List.mapIdx_append,
    List.mapIdx_cons, List.mapIdx_nil, Nat.zero_add]

/-- The tasks after one more finding. -/
theorem tasks_step (h : Planned findings draft) (finding : ArchitectureFinding) :
    (planFinding draft finding findings.length).tasks.entries =
      (findings ++ [finding]).mapIdx fun index other =>
        (other.taskId index, other.task index (previousOf (findings ++ [finding]) index)) := by
  have hnew : finding.taskId findings.length ∉ draft.tasks.keys := by
    intro hmem
    obtain ⟨task, hentry⟩ := Dict.mem_keys_iff.mp hmem
    rw [h.tasks] at hentry
    obtain ⟨index, hindex, hpair⟩ := List.mem_mapIdx.mp hentry
    have hid := congrArg Prod.fst hpair
    exact Nat.ne_of_lt hindex (ArchitectureFinding.index_of_taskId hid)
  have hold : (findings.mapIdx fun index other =>
        (other.taskId index, other.task index (previousOf findings index))) =
      findings.mapIdx fun index other =>
        (other.taskId index, other.task index (previousOf (findings ++ [finding]) index)) := by
    refine List.mapIdx_eq_mapIdx_iff.mpr fun index hindex => ?_
    rw [previousOf_append _ hindex.le]
  rw [planFinding_tasks, Dict.entries_set_of_notMem hnew, h.tasks, hold, List.mapIdx_append,
    List.mapIdx_cons, List.mapIdx_nil, Nat.zero_add, h.previous, previousOf_append _ le_rfl]

/-- **One more finding.** -/
theorem step (h : Planned findings draft) (finding : ArchitectureFinding) :
    Planned (findings ++ [finding]) (planFinding draft finding findings.length) where
  previous := previous_step draft finding
  tasks := h.tasks_step finding
  features := h.features_step finding
  epics := h.epics_step finding
  epicKeys := h.epicKeys_step finding

end Planned

/-- **The loop** plans all findings. -/
theorem planned (findings : List ArchitectureFinding) :
    Planned findings (planFindings findings) := by
  induction findings using List.reverseRecOn with
  | nil => exact Planned.start
  | append_singleton findings finding ih =>
    have hstep := ih.step finding
    unfold planFindings
    rw [List.zipIdx_append, List.foldl_append]
    simpa [planFindings] using hstep

/-! ### What is read off the plan -/

namespace Planned

variable {findings : List ArchitectureFinding} {draft : PlanDraft}

/-- The tasks of the plan. -/
theorem get?_tasks_iff (h : Planned findings draft) {id : String} {task : BacklogTask} :
    draft.tasks.get? id = some task ↔ ∃ (index : Nat) (finding : ArchitectureFinding),
      findings[index]? = some finding ∧ finding.taskId index = id ∧
        finding.task index (previousOf findings index) = task := by
  rw [Dict.get?_eq_some_iff, h.tasks, List.mem_mapIdx]
  constructor
  · rintro ⟨index, hindex, hpair⟩
    obtain ⟨hid, htask⟩ := Prod.mk.inj hpair
    exact ⟨index, findings[index], List.getElem?_eq_getElem hindex, hid, htask⟩
  · rintro ⟨index, finding, hget, rfl, rfl⟩
    obtain ⟨hindex, rfl⟩ := List.getElem?_eq_some_iff.mp hget
    exact ⟨index, hindex, rfl⟩

/-- The features of the plan. -/
theorem get?_features_iff (h : Planned findings draft) {id : String} {feature : Feature} :
    draft.features.get? id = some feature ↔ ∃ (index : Nat) (finding : ArchitectureFinding),
      findings[index]? = some finding ∧ finding.featureId index = id ∧
        finding.feature index = feature := by
  rw [Dict.get?_eq_some_iff, h.features, List.mem_mapIdx]
  constructor
  · rintro ⟨index, hindex, hpair⟩
    obtain ⟨hid, hfeature⟩ := Prod.mk.inj hpair
    exact ⟨index, findings[index], List.getElem?_eq_getElem hindex, hid, hfeature⟩
  · rintro ⟨index, finding, hget, rfl, rfl⟩
    obtain ⟨hindex, rfl⟩ := List.getElem?_eq_some_iff.mp hget
    exact ⟨index, hindex, rfl⟩

/-- What a task depends on is the task before it. -/
theorem dependsOn_task (finding : ArchitectureFinding) (index : Nat) :
    (finding.task index (previousOf findings index)).dependsOn =
      (previousOf findings index).toList := by
  have hne : ∀ (other : ArchitectureFinding) (i : Nat), other.taskId i ≠ "" := fun other i =>
    ArchitectureFinding.append_ne_empty
      (ArchitectureFinding.append_ne_empty (ArchitectureFinding.append_ne_empty (by decide) _) _) _
  cases hprevious : previousOf findings index with
  | none => rfl
  | some id =>
    cases index with
    | zero => cases hprevious
    | succ index =>
      obtain ⟨other, -, rfl⟩ := Option.map_eq_some_iff.mp hprevious
      have htruthy : truthy (some (other.taskId index)) = true :=
        bne_iff_ne.mpr (hne other index)
      unfold ArchitectureFinding.task
      dsimp only
      rw [if_pos htruthy]

theorem previousOf_eq_some_iff {index : Nat} {id : String} :
    previousOf findings index = some id ↔ ∃ (before : Nat) (other : ArchitectureFinding),
      index = before + 1 ∧ findings[before]? = some other ∧ other.taskId before = id := by
  cases index with
  | zero => exact iff_of_false nofun fun ⟨_, _, h, _⟩ => nomatch h
  | succ index =>
    rw [previousOf, Option.map_eq_some_iff]
    constructor
    · rintro ⟨other, hget, hid⟩
      exact ⟨index, other, rfl, hget, hid⟩
    · rintro ⟨before, other, hindex, hget, hid⟩
      cases hindex
      exact ⟨other, hget, hid⟩

/-- The number of a task is its rank. -/
theorem idxOf_taskId (h : Planned findings draft) {index : Nat} {finding : ArchitectureFinding}
    (hget : findings[index]? = some finding) :
    draft.tasks.keys.idxOf (finding.taskId index) = index := by
  have hkeys : draft.tasks.keys[index]? = some (finding.taskId index) := by
    rw [Dict.keys, h.tasks, List.getElem?_map, List.getElem?_mapIdx, hget]
    rfl
  obtain ⟨hindex, hkey⟩ := List.getElem?_eq_some_iff.mp hkeys
  rw [← hkey]
  exact draft.tasks.nodup_keys.idxOf_getElem index hindex

/-- The dependencies go back in the order of the findings. -/
theorem acyclic (h : Planned findings draft) :
    DepGraph.Acyclic (DepGraph.DependsOn (dependenciesOf draft.tasks)) := by
  have hranked : DepGraph.Ranked (DepGraph.DependsOn (dependenciesOf draft.tasks))
      fun id => draft.tasks.keys.idxOf id := by
    intro id other hdepends
    have hother : other ∈ dependenciesOf draft.tasks id := hdepends
    unfold dependenciesOf at hother
    split at hother
    · next task htask =>
      obtain ⟨index, finding, hget, rfl, rfl⟩ := h.get?_tasks_iff.mp htask
      rw [dependsOn_task, Option.mem_toList] at hother
      obtain ⟨before, finding', rfl, hget', rfl⟩ := previousOf_eq_some_iff.mp hother
      dsimp only
      rw [h.idxOf_taskId hget, h.idxOf_taskId hget']
      exact Nat.lt_succ_self before
    · exact absurd hother List.not_mem_nil
  exact hranked.acyclic

end Planned

/-! ### What a plan is for -/

/-- A task that is made of a finding. -/
def Addresses (finding : ArchitectureFinding) (task : BacklogTask) : Prop :=
  ∃ index previousTaskId, task = finding.task index previousTaskId

/-- **A sound plan of a list of findings.** -/
structure PlanSound (findings : List ArchitectureFinding) (output : PlanningOutput) : Prop where
  keys : output.backlog.KeysAreIds
  distinct : (output.backlog.epics.keys ++ output.backlog.features.keys ++
    output.backlog.tasks.keys).Nodup
  /-- The tasks are those of the findings, each once, in some order. -/
  tasks : ∃ order : List ArchitectureFinding, order.Perm findings ∧
    List.Forall₂ Addresses order output.backlog.tasks.values
  featureOfTask : ∀ task ∈ output.backlog.tasks.values, ∃ feature,
    output.backlog.features.get? task.featureId = some feature ∧ task.id ∈ feature.taskIds
  tasksOfFeature : ∀ feature ∈ output.backlog.features.values, ∀ taskId ∈ feature.taskIds,
    ∃ task, output.backlog.tasks.get? taskId = some task ∧ task.featureId = feature.id
  epicOfFeature : ∀ feature ∈ output.backlog.features.values, ∃ epic,
    output.backlog.epics.get? feature.epicId = some epic ∧ feature.id ∈ epic.featureIds
  featuresOfEpic : ∀ epic ∈ output.backlog.epics.values, ∀ featureId ∈ epic.featureIds,
    ∃ feature, output.backlog.features.get? featureId = some feature ∧ feature.epicId = epic.id
  epicsOfMilestone : output.milestone.epicIds = output.backlog.epics.keys
  dependencies : ∀ task ∈ output.backlog.tasks.values, ∀ dependency ∈ task.dependsOn,
    dependency ∈ output.backlog.tasks.keys
  acyclic : DepGraph.Acyclic (DepGraph.DependsOn (dependenciesOf output.backlog.tasks))
  /-- The edges of kind `depends_on`, in order. -/
  edges : (output.dependencyEdges.filter fun edge => edge.type = .dependsOn).map
      (fun edge => (edge.fromId, edge.toId)) =
    output.backlog.tasks.values.flatMap fun task =>
      task.dependsOn.map fun dependency => (dependency, task.id)

theorem containment_edges (milestone : Milestone) (backlog : Backlog) :
    (buildContainmentEdges milestone backlog).filter (fun edge => edge.type = .dependsOn) = [] := by
  rw [List.filter_eq_nil_iff]
  intro edge hedge
  have hcontains : edge.type = .contains := by
    obtain ⟨epicId, -, hepic⟩ := List.mem_flatMap.mp hedge
    rcases List.mem_cons.mp hepic with rfl | hepic
    · rfl
    · split at hepic
      · exact absurd hepic List.not_mem_nil
      · obtain ⟨featureId, -, hfeature⟩ := List.mem_flatMap.mp hepic
        rcases List.mem_cons.mp hfeature with rfl | hfeature
        · rfl
        · split at hfeature
          · exact absurd hfeature List.not_mem_nil
          · obtain ⟨taskId, -, rfl⟩ := List.mem_map.mp hfeature
            rfl
  simp [hcontains]

theorem dependency_edges (tasks : Record BacklogTask) :
    ((buildTaskDependencyEdges tasks).filter fun edge => edge.type = .dependsOn).map
        (fun edge => (edge.fromId, edge.toId)) =
      tasks.values.flatMap fun task => task.dependsOn.map fun dependency => (dependency, task.id) := by
  have hall : (buildTaskDependencyEdges tasks).filter (fun edge => edge.type = .dependsOn) =
      buildTaskDependencyEdges tasks := by
    rw [List.filter_eq_self]
    intro edge hedge
    obtain ⟨task, -, hdependency⟩ := List.mem_flatMap.mp hedge
    obtain ⟨dependency, -, rfl⟩ := List.mem_map.mp hdependency
    rfl
  rw [hall, buildTaskDependencyEdges, List.map_flatMap]
  simp only [List.map_map]
  rfl

/-- Ids of different kinds begin with different letters. -/
theorem head_of_epicId (finding : ArchitectureFinding) : finding.epicId.toList.head? = some 'e' := by
  rw [ArchitectureFinding.epicId, String.toList_append]
  rfl

theorem head_of_featureId (finding : ArchitectureFinding) (index : Nat) :
    (finding.featureId index).toList.head? = some 'f' := by
  simp only [ArchitectureFinding.featureId, String.toList_append, List.append_assoc]
  rfl

theorem head_of_taskId (finding : ArchitectureFinding) (index : Nat) :
    (finding.taskId index).toList.head? = some 't' := by
  simp only [ArchitectureFinding.taskId, String.toList_append, List.append_assoc]
  rfl

namespace Planned

variable {findings : List ArchitectureFinding} {draft : PlanDraft}

/-- The backlog of a plan. -/
def backlog (draft : PlanDraft) : Backlog where
  epics := draft.epicEntries
  features := draft.features
  tasks := draft.tasks

theorem keysAreIds (h : Planned findings draft) : (backlog draft).KeysAreIds where
  epics key epic hget := (h.epics key epic hget).id_eq
  features key feature hget := by
    obtain ⟨index, finding, -, rfl, rfl⟩ := h.get?_features_iff.mp hget
    rfl
  tasks key task hget := by
    obtain ⟨index, finding, -, rfl, rfl⟩ := h.get?_tasks_iff.mp hget
    rfl

/-- No id is used twice. -/
theorem distinct (h : Planned findings draft) :
    (draft.epicEntries.keys ++ draft.features.keys ++ draft.tasks.keys).Nodup := by
  have hepics : ∀ id ∈ draft.epicEntries.keys, id.toList.head? = some 'e' := by
    intro id hid
    obtain ⟨epic, hget⟩ := Dict.exists_get?_iff.mpr hid
    obtain ⟨finding, -, rfl⟩ := (h.epics id epic hget).finding
    exact head_of_epicId finding
  have hfeatures : ∀ id ∈ draft.features.keys, id.toList.head? = some 'f' := by
    intro id hid
    obtain ⟨feature, hget⟩ := Dict.exists_get?_iff.mpr hid
    obtain ⟨index, finding, -, rfl, -⟩ := h.get?_features_iff.mp hget
    exact head_of_featureId finding index
  have htasks : ∀ id ∈ draft.tasks.keys, id.toList.head? = some 't' := by
    intro id hid
    obtain ⟨task, hget⟩ := Dict.exists_get?_iff.mpr hid
    obtain ⟨index, finding, -, rfl, -⟩ := h.get?_tasks_iff.mp hget
    exact head_of_taskId finding index
  have hletters : ∀ {id : String} {c d : Char}, id.toList.head? = some c →
      id.toList.head? = some d → c = d := fun hc hd => Option.some.inj (hc.symm.trans hd)
  refine List.nodup_append'.mpr ⟨List.nodup_append'.mpr ⟨draft.epicEntries.nodup_keys,
    draft.features.nodup_keys, ?_⟩, draft.tasks.nodup_keys, ?_⟩
  · intro id hid hid'
    exact absurd (hletters (hepics id hid) (hfeatures id hid')) (by decide)
  · intro id hid hid'
    rcases List.mem_append.mp hid with hepic | hfeature
    · exact absurd (hletters (hepics id hepic) (htasks id hid')) (by decide)
    · exact absurd (hletters (hfeatures id hfeature) (htasks id hid')) (by decide)

/-- The tasks, one for each finding. -/
theorem addresses (h : Planned findings draft) :
    List.Forall₂ Addresses findings draft.tasks.values := by
  have hvalues : draft.tasks.values = findings.mapIdx fun index finding =>
      finding.task index (previousOf findings index) := by
    refine List.ext_getElem? fun index => ?_
    rw [Dict.values, h.tasks, List.getElem?_map, List.getElem?_mapIdx, List.getElem?_mapIdx,
      Option.map_map]
    rfl
  rw [hvalues, List.forall₂_iff_get]
  refine ⟨by simp, fun index hindex hindex' => ?_⟩
  simp only [List.get_eq_getElem, List.getElem_mapIdx]
  exact ⟨_, _, rfl⟩

/-- The epic of a finding that is planned. -/
theorem exists_epic (h : Planned findings draft) {index : Nat} {finding : ArchitectureFinding}
    (hget : findings[index]? = some finding) :
    ∃ epic, draft.epicEntries.get? finding.epicId = some epic ∧
      finding.featureId index ∈ epic.featureIds := by
  obtain ⟨epic, hepic⟩ :=
    Dict.exists_get?_iff.mpr (h.epicKeys finding (List.mem_of_getElem? hget))
  exact ⟨epic, hepic, ((h.epics _ epic hepic).features _).mpr ⟨index, finding, hget, rfl, rfl⟩⟩

end Planned

/-- There is a merge preview of tasks under their ids. -/
theorem exists_mergePreview (host : Host) {tasks : Record BacklogTask}
    (hkeys : ∀ key task, tasks.get? key = some task → task.id = key) :
    ∃ preview, buildMergePreview host tasks = some preview := by
  have hrounds : tasks.keys.length ≤ tasks.values.length := by
    rw [Dict.keys, Dict.values, List.length_map, List.length_map]
  rw [buildMergePreview, remaining_eq hkeys]
  obtain ⟨preview, hpreview, -⟩ := mergeLoop_correct _ (MergeInv.start hkeys _) hrounds
  exact ⟨preview, hpreview⟩

/-- The planner puts out the plan of the findings. -/
theorem exists_output (host : Host) (input : PlannerInput) :
    ∃ output, PlannerRole.execute host input = some output ∧
      output.backlog = Planned.backlog (planFindings (sortFindings input.findings)) ∧
      output.milestone = hardeningMilestone output.backlog.epics.keys ∧
      output.dependencyEdges = buildContainmentEdges output.milestone output.backlog ++
        buildTaskDependencyEdges output.backlog.tasks := by
  have hplanned := planned (sortFindings input.findings)
  obtain ⟨preview, hpreview⟩ := exists_mergePreview host hplanned.keysAreIds.tasks
  have hpreview' : buildMergePreview host (planFindings (sortFindings input.findings)).tasks =
      some preview := hpreview
  unfold PlannerRole.execute
  dsimp only
  rw [hpreview']
  exact ⟨_, rfl, rfl, rfl, rfl⟩

/-- **The planner's plan is sound**, for all findings. -/
theorem planSound (host : Host) (input : PlannerInput) :
    ∃ output, PlannerRole.execute host input = some output ∧
      PlanSound input.findings output ∧
      output.backlog = Planned.backlog (planFindings (sortFindings input.findings)) ∧
      output.milestone = hardeningMilestone output.backlog.epics.keys := by
  have h := planned (sortFindings input.findings)
  obtain ⟨output, hexecute, hbacklog, hmilestone, hedges⟩ := exists_output host input
  refine ⟨output, hexecute, ?_, hbacklog, hmilestone⟩
  have htasks : ∀ task ∈ output.backlog.tasks.values, ∃ (index : Nat)
      (finding : ArchitectureFinding), (sortFindings input.findings)[index]? = some finding ∧
        finding.task index (previousOf (sortFindings input.findings) index) = task := by
    intro task htask
    obtain ⟨key, hget⟩ := Dict.mem_values_iff.mp htask
    rw [hbacklog] at hget
    obtain ⟨index, finding, hfinding, -, heq⟩ := h.get?_tasks_iff.mp hget
    exact ⟨index, finding, hfinding, heq⟩
  have hfeatures : ∀ feature ∈ output.backlog.features.values, ∃ (index : Nat)
      (finding : ArchitectureFinding), (sortFindings input.findings)[index]? = some finding ∧
        finding.feature index = feature := by
    intro feature hfeature
    obtain ⟨key, hget⟩ := Dict.mem_values_iff.mp hfeature
    rw [hbacklog] at hget
    obtain ⟨index, finding, hfinding, -, heq⟩ := h.get?_features_iff.mp hget
    exact ⟨index, finding, hfinding, heq⟩
  have htask {index : Nat} {finding : ArchitectureFinding}
      (hget : (sortFindings input.findings)[index]? = some finding) :
      output.backlog.tasks.get? (finding.taskId index) =
        some (finding.task index (previousOf (sortFindings input.findings) index)) := by
    rw [hbacklog]
    exact h.get?_tasks_iff.mpr ⟨index, finding, hget, rfl, rfl⟩
  have hfeature {index : Nat} {finding : ArchitectureFinding}
      (hget : (sortFindings input.findings)[index]? = some finding) :
      output.backlog.features.get? (finding.featureId index) = some (finding.feature index) := by
    rw [hbacklog]
    exact h.get?_features_iff.mpr ⟨index, finding, hget, rfl, rfl⟩
  refine
    { keys := hbacklog ▸ h.keysAreIds
      distinct := hbacklog ▸ h.distinct
      tasks := ⟨sortFindings input.findings, List.mergeSort_perm _ _, hbacklog ▸ h.addresses⟩
      featureOfTask := ?_, tasksOfFeature := ?_, epicOfFeature := ?_, featuresOfEpic := ?_
      epicsOfMilestone := by rw [hmilestone]; rfl
      dependencies := ?_
      acyclic := hbacklog ▸ h.acyclic
      edges := ?_ }
  · intro task hmem
    obtain ⟨index, finding, hget, rfl⟩ := htasks task hmem
    exact ⟨finding.feature index, hfeature hget, List.mem_singleton_self _⟩
  · intro feature hmem taskId htaskId
    obtain ⟨index, finding, hget, rfl⟩ := hfeatures feature hmem
    rw [List.mem_singleton.mp htaskId]
    exact ⟨_, htask hget, rfl⟩
  · intro feature hmem
    obtain ⟨index, finding, hget, rfl⟩ := hfeatures feature hmem
    obtain ⟨epic, hepic, hin⟩ := h.exists_epic hget
    rw [hbacklog]
    exact ⟨epic, hepic, hin⟩
  · intro epic hmem featureId hfeatureId
    obtain ⟨id, hepic⟩ := Dict.mem_values_iff.mp hmem
    rw [hbacklog] at hepic
    have hplanned := h.epics id epic hepic
    obtain ⟨index, finding, hget, rfl, rfl⟩ := (hplanned.features featureId).mp hfeatureId
    exact ⟨_, hfeature hget, hplanned.id_eq.symm⟩
  · intro task hmem dependency hdependency
    obtain ⟨index, finding, hget, rfl⟩ := htasks task hmem
    rw [Planned.dependsOn_task, Option.mem_toList] at hdependency
    obtain ⟨before, other, -, hother, rfl⟩ := Planned.previousOf_eq_some_iff.mp hdependency
    exact Dict.mem_keys_of_get? (htask hother)
  · rw [hedges, List.filter_append, containment_edges, List.nil_append, dependency_edges]

/-! ### The plan in a fresh state -/

/-- A finding that passes its check has texts. -/
theorem texts_of_valid {finding : ArchitectureFinding}
    (h : validateArchitectureFinding finding = []) :
    finding.impact ≠ "" ∧ finding.recommendation ≠ "" := by
  have hblank : Text.isBlank "" = true := rfl
  simp only [validateArchitectureFinding, append_nil_and, ite_singleton_eq_nil] at h
  obtain ⟨⟨⟨-, himpact⟩, hrecommendation⟩, -⟩ := h
  exact ⟨fun heq => himpact (heq ▸ hblank), fun heq => hrecommendation (heq ▸ hblank)⟩

namespace ArchitectureFinding

theorem epicId_ne_empty (finding : ArchitectureFinding) : finding.epicId ≠ "" :=
  append_ne_empty (by decide) _

theorem featureId_ne_empty (finding : ArchitectureFinding) (index : Nat) :
    finding.featureId index ≠ "" :=
  append_ne_empty (append_ne_empty (append_ne_empty (by decide) _) _) _

theorem taskId_ne_empty (finding : ArchitectureFinding) (index : Nat) :
    finding.taskId index ≠ "" :=
  append_ne_empty (append_ne_empty (append_ne_empty (by decide) _) _) _

theorem feature_schemaOk {finding : ArchitectureFinding}
    (h : validateArchitectureFinding finding = []) (index : Nat) :
    (finding.feature index).SchemaOk := by
  obtain ⟨himpact, hrecommendation⟩ := texts_of_valid h
  have htitle : humanizeIssueType finding.issueType ≠ "" := by
    cases finding.issueType <;> decide
  refine ⟨finding.featureId_ne_empty index, finding.epicId_ne_empty, htitle, hrecommendation, ?_, ?_⟩
  · intro risk hrisk
    rw [List.mem_singleton.mp hrisk]
    exact himpact
  · intro taskId htaskId
    rw [List.mem_singleton.mp htaskId]
    exact finding.taskId_ne_empty index

/-- The task of a finding is accepted by the schema if its modules are. -/
theorem task_schemaOk_iff (findings : List ArchitectureFinding) (finding : ArchitectureFinding)
    (index : Nat) : (finding.task index (previousOf findings index)).SchemaOk ↔
      ∀ name ∈ finding.affectedModules, name ≠ "" := by
  constructor
  · exact fun h => h.2.2.2.2.2.2
  · intro hmodules
    refine ⟨finding.taskId_ne_empty index, finding.featureId_ne_empty index, nofun,
      append_ne_empty (append_ne_empty (append_ne_empty (by decide) _) _) _, ?_, ?_, hmodules⟩
    · intro dependency hdependency
      rw [Planned.dependsOn_task, Option.mem_toList] at hdependency
      obtain ⟨before, other, -, -, rfl⟩ := Planned.previousOf_eq_some_iff.mp hdependency
      exact other.taskId_ne_empty before
    · intro criterion hcriterion
      rcases List.mem_pair.mp hcriterion with rfl | rfl
      · exact append_ne_empty (append_ne_empty (by decide) _) _
      · exact append_ne_empty (append_ne_empty (by decide) _) _

end ArchitectureFinding

theorem PlannedEpic.schemaOk {findings : List ArchitectureFinding} {id : String} {epic : Epic}
    (h : PlannedEpic findings id epic) : epic.SchemaOk := by
  obtain ⟨finding, -, hid⟩ := h.finding
  refine ⟨?_, h.texts.1, h.texts.2, fun featureId hfeatureId => ?_⟩
  · rw [h.id_eq, ← hid]
    exact finding.epicId_ne_empty
  · obtain ⟨index, other, -, -, rfl⟩ := (h.features featureId).mp hfeatureId
    exact other.featureId_ne_empty index

theorem hardeningMilestone_schemaOk {epicIds : List String} (h : ∀ id ∈ epicIds, id ≠ "") :
    (hardeningMilestone epicIds).SchemaOk := by
  have hid : "milestone-architecture-hardening" ≠ "" := by decide
  have htitle : "Architecture hardening" ≠ "" := by decide
  have hgoal : "Reduce architecture risk before broader feature expansion" ≠ "" := by decide
  exact ⟨hid, htitle, hgoal, h⟩

/-- **The plan is consistent in itself** if the modules have names. -/
theorem PlanSound.selfConsistent {findings : List ArchitectureFinding} {output : PlanningOutput}
    (hsound : PlanSound findings output) {sorted : List ArchitectureFinding} {draft : PlanDraft}
    (hplanned : Planned sorted draft) (hbacklog : output.backlog = Planned.backlog draft)
    (hmilestone : output.milestone = hardeningMilestone output.backlog.epics.keys)
    (hvalid : ∀ finding ∈ sorted, validateArchitectureFinding finding = [])
    (hmodules : ∀ finding ∈ sorted, ∀ name ∈ finding.affectedModules, name ≠ "") :
    output.SelfConsistent := by
  have hepics : ∀ epic ∈ output.backlog.epics.values, epic.SchemaOk := by
    intro epic hepic
    obtain ⟨id, hget⟩ := Dict.mem_values_iff.mp hepic
    rw [hbacklog] at hget
    exact (hplanned.epics id epic hget).schemaOk
  -- Every task of the plan is that of a finding, chained to the one before it.
  have htaskOf : ∀ task ∈ output.backlog.tasks.values, ∃ (index : Nat)
      (finding : ArchitectureFinding), sorted[index]? = some finding ∧
        finding.task index (previousOf sorted index) = task := by
    intro task htask
    obtain ⟨id, hget⟩ := Dict.mem_values_iff.mp htask
    rw [hbacklog] at hget
    obtain ⟨index, finding, hfinding, -, heq⟩ := hplanned.get?_tasks_iff.mp hget
    exact ⟨index, finding, hfinding, heq⟩
  refine ⟨hepics, ?_, ?_, ?_, ?_, ?_, ?_⟩
  · intro feature hfeature
    obtain ⟨id, hget⟩ := Dict.mem_values_iff.mp hfeature
    rw [hbacklog] at hget
    obtain ⟨index, finding, hfinding, -, rfl⟩ := hplanned.get?_features_iff.mp hget
    exact ArchitectureFinding.feature_schemaOk
      (hvalid finding (List.mem_of_getElem? hfinding)) index
  · intro task htask
    obtain ⟨index, finding, hget, rfl⟩ := htaskOf task htask
    exact (ArchitectureFinding.task_schemaOk_iff sorted finding index).mpr
      (hmodules finding (List.mem_of_getElem? hget))
  -- The milestone names the keys of the epics, which are their ids and not empty.
  · rw [hmilestone]
    refine hardeningMilestone_schemaOk fun id hid => ?_
    obtain ⟨epic, hget⟩ := Dict.exists_get?_iff.mpr hid
    rw [← hsound.keys.epics id epic hget]
    exact (hepics epic (Dict.mem_values_of_get? hget)).1
  · intro epic hepic featureId hfeatureId
    obtain ⟨feature, hfeature, -⟩ := hsound.featuresOfEpic epic hepic featureId hfeatureId
    exact Or.inl (Dict.mem_keys_of_get? hfeature)
  · intro feature hfeature
    obtain ⟨epic, hepic, -⟩ := hsound.epicOfFeature feature hfeature
    exact ⟨Or.inl (Dict.mem_keys_of_get? hepic), hsound.tasksOfFeature feature hfeature⟩
  · intro task htask
    have hdependencies := hsound.dependencies task htask
    obtain ⟨index, finding, -, rfl⟩ := htaskOf task htask
    exact ⟨validateBacklogTask_eq_nil_iff.mpr ⟨List.cons_ne_nil _ _, nofun⟩, nofun,
      fun dependency hdep => Or.inl (hdependencies dependency hdep)⟩

/-- The modules of the findings, where a state with their plan is accepted. -/
theorem names_of_accepted {findings : List ArchitectureFinding} {draft : PlanDraft}
    (hplanned : Planned findings draft) {state : ProjectState} {output : PlanningOutput}
    (hbacklog : output.backlog = Planned.backlog draft)
    (haccepted : (state.installPlan output).Valid) :
    ∀ finding ∈ findings, ∀ name ∈ finding.affectedModules, name ≠ "" := by
  intro finding hfinding name hname
  obtain ⟨index, hget⟩ := List.mem_iff_getElem?.mp hfinding
  have htask := hplanned.get?_tasks_iff.mpr ⟨index, finding, hget, rfl, rfl⟩
  have hmem := Dict.mem_values_of_get? htask
  have hin : finding.task index (previousOf findings index) ∈ output.backlog.tasks.values := by
    rw [hbacklog]
    exact hmem
  have hschema := haccepted.schema.tasks _ hin
  exact (ArchitectureFinding.task_schemaOk_iff _ finding index).mp hschema name hname

theorem mem_sortFindings {findings : List ArchitectureFinding} {finding : ArchitectureFinding} :
    finding ∈ sortFindings findings ↔ finding ∈ findings :=
  List.mem_mergeSort

/-- **The planner.** For findings that pass their check the plan is sound, and a fresh state with
the plan is accepted exactly if it has an organisation and no finding names the empty text as a
module. -/
theorem planner_correct_iff (host : Host) (input : PlannerInput)
    (hvalid : ∀ finding ∈ input.findings, validateArchitectureFinding finding = [])
    (orgId : Option String) (projectId projectName summary : String) :
    ∃ output, PlannerRole.execute host input = some output ∧ PlanSound input.findings output ∧
      (validateProjectState
          ((ProjectState.createEmpty orgId projectId projectName summary).installPlan output) = [] ↔
        orgId ≠ some "" ∧
          ∀ finding ∈ input.findings, ∀ name ∈ finding.affectedModules, name ≠ "") := by
  obtain ⟨output, hexecute, hsound, hbacklog, hmilestone⟩ := planSound host input
  refine ⟨output, hexecute, hsound, ?_⟩
  have hplanned := planned (sortFindings input.findings)
  rw [validateProjectState_eq_nil_iff]
  constructor
  · intro haccepted
    refine ⟨fun horg => ?_, fun finding hfinding => ?_⟩
    · have hempty := haccepted.schema.org
      rw [horg] at hempty
      exact hempty rfl
    · exact names_of_accepted hplanned hbacklog haccepted finding (mem_sortFindings.mpr hfinding)
  · rintro ⟨horg, hmodules⟩
    have hconsistent := hsound.selfConsistent hplanned hbacklog hmilestone
      (fun finding hfinding => hvalid finding (mem_sortFindings.mp hfinding))
      (fun finding hfinding => hmodules finding (mem_sortFindings.mp hfinding))
    -- a fresh state has no history
    refine (ProjectState.installPlan_valid_iff (createEmpty_valid horg _ _ _) hconsistent).mpr
      ⟨nofun, List.length_filter_le _ _, nofun, nofun⟩

/-- A platform for which all texts are in the order of their code points. -/
def plannerHost : Host where
  sha256Hex := fun _ => "digest"
  localeCompare := fun a b => compare a b
  stringify := fun _ => "{}"
  tokenCost := fun _ _ => 0

/-- A finding about a subsystem and a module of it. -/
def gapIn (subsystem name : String) : ArchitectureFinding where
  subsystem := subsystem
  issueType := .criticalPathGap
  description := "Two entry points"
  impact := "Changes cross boundaries"
  recommendation := "Keep boundaries stable"
  affectedModules := [name]
  severity := .medium

/-- The input of the planner for some findings. -/
def plannerInput (findings : List ArchitectureFinding) : PlannerInput where
  discovery := (ProjectState.createEmpty none "P-1" "Parser" "A parser").discovery
  findings := findings

/-- Two subsystems with one slug, and one with an empty slug. -/
theorem planner_correct_iff_collision :
    ∃ output, PlannerRole.execute plannerHost
        (plannerInput [gapIn "core" "a.ts", gapIn "Core!" "b.ts", gapIn "!" "c.ts"]) = some output ∧
      PlanSound [gapIn "core" "a.ts", gapIn "Core!" "b.ts", gapIn "!" "c.ts"] output ∧
      validateProjectState
        ((ProjectState.createEmpty none "P-1" "Parser" "A parser").installPlan output) = [] := by
  have hfindings : ∀ finding ∈ [gapIn "core" "a.ts", gapIn "Core!" "b.ts", gapIn "!" "c.ts"],
      validateArchitectureFinding finding = [] ∧ ∀ name ∈ finding.affectedModules, name ≠ "" := by
    decide
  obtain ⟨output, hexecute, hsound, haccepted⟩ := planner_correct_iff plannerHost
    (plannerInput [gapIn "core" "a.ts", gapIn "Core!" "b.ts", gapIn "!" "c.ts"])
    (fun finding hfinding => (hfindings finding hfinding).1) none "P-1" "Parser" "A parser"
  exact ⟨output, hexecute, hsound,
    haccepted.mpr ⟨nofun, fun finding hfinding => (hfindings finding hfinding).2⟩⟩

/-- The plan for a valid finding with an empty name among its modules is not accepted. -/
theorem empty_module_rejected :
    validateArchitectureFinding (gapIn "core" "") = [] ∧
    ∃ output, PlannerRole.execute plannerHost (plannerInput [gapIn "core" ""]) = some output ∧
      validateProjectState
        ((ProjectState.createEmpty none "P-1" "Parser" "A parser").installPlan output) ≠ [] := by
  refine ⟨by decide, ?_⟩
  obtain ⟨output, hexecute, -, hbacklog, -⟩ :=
    planSound plannerHost (plannerInput [gapIn "core" ""])
  refine ⟨output, hexecute, fun haccepted => ?_⟩
  have hplanned := planned (sortFindings (plannerInput [gapIn "core" ""]).findings)
  have hnames := names_of_accepted hplanned hbacklog (validateProjectState_eq_nil_iff.mp haccepted)
  have hmem : gapIn "core" "" ∈ sortFindings (plannerInput [gapIn "core" ""]).findings :=
    mem_sortFindings.mpr List.mem_cons_self
  exact hnames _ hmem "" List.mem_cons_self rfl

end AiOrchestrator
