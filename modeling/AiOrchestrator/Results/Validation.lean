import AiOrchestrator.Results.Backlog

/-!
# What validation promises the scheduler

The scheduler looks tasks up by their ids, follows the references between epics, features,
tasks and milestones, and takes a dependency for done when its id is among the completed ones.
`SchedulerSound` says that a state bears this out. `validateProjectState` checks most of it, but
not that entities are stored under their ids, not the feature of a task and the epics of a
milestone, and not that a done task is among the completed ones; and where it looks a reference up,
it takes a member that every object inherits for an entity. An accepted state is sound exactly when
these hold as well (`accepted_sound_iff`).
-/

namespace AiOrchestrator

/-- The entities of a backlog are stored under their ids. -/
structure Backlog.KeysAreIds (backlog : Backlog) : Prop where
  epics : ∀ key epic, backlog.epics.get? key = some epic → epic.id = key
  features : ∀ key feature, backlog.features.get? key = some feature → feature.id = key
  tasks : ∀ key task, backlog.tasks.get? key = some task → task.id = key

namespace ProjectState

/-- **A state that the scheduler can rely on**: entities under their ids, references that
resolve, and the completed ids those of the done tasks. -/
structure SchedulerSound (state : ProjectState) : Prop where
  keys : state.backlog.KeysAreIds
  taskFeature : ∀ task ∈ state.backlog.tasks.values, task.featureId ∈ state.backlog.features.keys
  featureEpic : ∀ feature ∈ state.backlog.features.values,
    feature.epicId ∈ state.backlog.epics.keys
  featureTasks : ∀ feature ∈ state.backlog.features.values, ∀ taskId ∈ feature.taskIds,
    taskId ∈ state.backlog.tasks.keys
  epicFeatures : ∀ epic ∈ state.backlog.epics.values, ∀ featureId ∈ epic.featureIds,
    featureId ∈ state.backlog.features.keys
  milestoneEpics : ∀ milestone ∈ state.milestones.values, ∀ epicId ∈ milestone.epicIds,
    epicId ∈ state.backlog.epics.keys
  dependencies : ∀ task ∈ state.backlog.tasks.values, ∀ dependency ∈ task.dependsOn,
    dependency ∈ state.backlog.tasks.keys
  splitParents : ∀ task ∈ state.backlog.tasks.values, ∀ parent, task.splitFromTaskId = some parent →
    parent ∈ state.backlog.tasks.keys
  activeTask : ∀ taskId, state.execution.activeTaskId = some taskId →
    taskId ∈ state.backlog.tasks.keys
  currentMilestone : ∀ milestoneId, state.currentMilestoneId = some milestoneId →
    milestoneId ∈ state.milestones.keys
  done_iff : ∀ task ∈ state.backlog.tasks.values,
    task.status = .done ↔ task.id ∈ state.execution.completedTaskIds

/-- **References to inherited members**, which a lookup finds in any object, are references to
entities of that name. -/
structure InheritedRefsOwn (state : ProjectState) : Prop where
  featureEpic : ∀ feature ∈ state.backlog.features.values, feature.epicId ∈ inheritedNames →
    feature.epicId ∈ state.backlog.epics.keys
  epicFeatures : ∀ epic ∈ state.backlog.epics.values, ∀ featureId ∈ epic.featureIds,
    featureId ∈ inheritedNames → featureId ∈ state.backlog.features.keys
  dependencies : state.OwnDependencies
  splitParents : ∀ task ∈ state.backlog.tasks.values, ∀ parent, task.splitFromTaskId = some parent →
    parent ∈ inheritedNames → parent ∈ state.backlog.tasks.keys
  activeTask : ∀ taskId, state.execution.activeTaskId = some taskId → taskId ∈ inheritedNames →
    taskId ∈ state.backlog.tasks.keys
  currentMilestone : ∀ milestoneId, state.currentMilestoneId = some milestoneId →
    milestoneId ∈ inheritedNames → milestoneId ∈ state.milestones.keys

/-- What validation leaves to others: entities under their ids, the feature of a task, the epics
of a milestone, a current milestone that is the empty text, done tasks among the completed
ones, and references with the name of an inherited member. -/
structure UncheckedSound (state : ProjectState) : Prop where
  keys : state.backlog.KeysAreIds
  taskFeature : ∀ task ∈ state.backlog.tasks.values, task.featureId ∈ state.backlog.features.keys
  milestoneEpics : ∀ milestone ∈ state.milestones.values, ∀ epicId ∈ milestone.epicIds,
    epicId ∈ state.backlog.epics.keys
  currentMilestone : state.currentMilestoneId = some "" → "" ∈ state.milestones.keys
  doneListed : ∀ task ∈ state.backlog.tasks.values, task.status = .done →
    task.id ∈ state.execution.completedTaskIds
  inheritedRefs : state.InheritedRefsOwn

/-- A reference that a lookup finds is one to an entity, if it is where it names an inherited
member. -/
theorem mem_keys_of_finds {α : Type} {record : Record α} {key : String} (h : record.Finds key)
    (hinherited : key ∈ inheritedNames → key ∈ record.keys) : key ∈ record.keys :=
  h.elim id hinherited

/-- **An accepted state is sound** exactly when what validation does not look at is. -/
theorem accepted_sound_iff (state : ProjectState) (haccepted : validateProjectState state = []) :
    state.SchedulerSound ↔ state.UncheckedSound := by
  have hvalid := validateProjectState_eq_nil_iff.mp haccepted
  constructor
  -- A sound state has every reference under an own key, the inherited names included.
  · intro h
    exact
      { keys := h.keys
        taskFeature := h.taskFeature
        milestoneEpics := h.milestoneEpics
        currentMilestone := fun hempty => h.currentMilestone "" hempty
        doneListed := fun task htask => (h.done_iff task htask).mp
        inheritedRefs :=
          { featureEpic := fun feature hfeature _ => h.featureEpic feature hfeature
            epicFeatures := fun epic hepic featureId hid _ => h.epicFeatures epic hepic featureId hid
            dependencies := fun task htask dependency hdep _ =>
              h.dependencies task htask dependency hdep
            splitParents := fun task htask parent hparent _ =>
              h.splitParents task htask parent hparent
            activeTask := fun taskId hactive _ => h.activeTask taskId hactive
            currentMilestone := fun milestoneId hcurrent _ =>
              h.currentMilestone milestoneId hcurrent } }
  -- The check finds each reference, be it inherited; what it leaves out is assumed.
  · intro h
    exact
      { keys := h.keys
        taskFeature := h.taskFeature
        featureEpic := fun feature hfeature =>
          mem_keys_of_finds (hvalid.featureRefs feature hfeature).1
            (h.inheritedRefs.featureEpic feature hfeature)
        featureTasks := fun feature hfeature taskId htaskId => by
          obtain ⟨task, hget, -⟩ := (hvalid.featureRefs feature hfeature).2 taskId htaskId
          exact Dict.mem_keys_of_get? hget
        epicFeatures := fun epic hepic featureId hid =>
          mem_keys_of_finds (hvalid.epicRefs epic hepic featureId hid)
            (h.inheritedRefs.epicFeatures epic hepic featureId hid)
        milestoneEpics := h.milestoneEpics
        dependencies := fun task htask dependency hdep =>
          mem_keys_of_finds ((hvalid.taskRefs task htask).2.2 dependency hdep)
            (h.inheritedRefs.dependencies task htask dependency hdep)
        splitParents := fun task htask parent hparent => by
          have hne := (hvalid.schema.tasks task htask).2.2.1 parent hparent
          exact mem_keys_of_finds ((hvalid.taskRefs task htask).2.1 parent hparent hne)
            (h.inheritedRefs.splitParents task htask parent hparent)
        activeTask := fun taskId hactive => by
          have hne := hvalid.schema.execution.1 taskId hactive
          exact mem_keys_of_finds (hvalid.activeTask taskId hactive hne)
            (h.inheritedRefs.activeTask taskId hactive)
        currentMilestone := fun milestoneId hcurrent => by
          by_cases hne : milestoneId = ""
          · subst hne
            exact h.currentMilestone hcurrent
          · exact mem_keys_of_finds (hvalid.currentMilestone milestoneId hcurrent hne)
              (h.inheritedRefs.currentMilestone milestoneId hcurrent)
        done_iff := fun task htask => by
          refine ⟨h.doneListed task htask, fun hlisted => ?_⟩
          -- the completed id is the key of a done task, and the task is stored under its id
          obtain ⟨key, hget⟩ := Dict.mem_values_iff.mp htask
          obtain ⟨done, hdone, hstatus⟩ := hvalid.completedRefs task.id hlisted
          have hkey : task.id = key := h.keys.tasks key task hget
          rw [hkey, hget] at hdone
          rw [Option.some.inj hdone]
          exact hstatus }

/-! A done task that is listed, and one that is not. -/

/-- A project with a done task, one that depends on it and is called as an inherited member, and one
that depends on both. The ids of the completed tasks are given. -/
def doneTask (completedTaskIds : List String) : ProjectState :=
  let state := sampleState
    [("T-1", { sampleTask "T-1" [] ["The grammar is read"] with status := .done }),
      ("constructor", sampleTask "constructor" ["T-1"] ["The tree is built"]),
      ("T-2", sampleTask "T-2" ["T-1", "constructor"] ["The types are checked"])]
  { state with execution := { state.execution with completedTaskIds } }

/-- Entities are stored under their ids if every entry of the maps says so. -/
theorem keysAreIds_of_entries {backlog : Backlog}
    (hepics : ∀ entry ∈ backlog.epics.entries, entry.2.id = entry.1)
    (hfeatures : ∀ entry ∈ backlog.features.entries, entry.2.id = entry.1)
    (htasks : ∀ entry ∈ backlog.tasks.entries, entry.2.id = entry.1) : backlog.KeysAreIds where
  epics key epic h := hepics (key, epic) (Dict.get?_eq_some_iff.mp h)
  features key feature h := hfeatures (key, feature) (Dict.get?_eq_some_iff.mp h)
  tasks key task h := htasks (key, task) (Dict.get?_eq_some_iff.mp h)

/-- **With the done task among the completed ones** the scheduler can rely on the project: what
validation leaves to others holds of it. -/
theorem accepted_sound_iff_listed : (doneTask ["T-1"]).SchedulerSound := by
  refine (accepted_sound_iff (doneTask ["T-1"]) (by decide)).mpr
    { keys := keysAreIds_of_entries (by decide) (by decide) (by decide)
      taskFeature := by decide
      milestoneEpics := by decide
      currentMilestone := nofun
      doneListed := by decide
      inheritedRefs := ?_ }
  exact
    { featureEpic := by decide
      epicFeatures := by decide
      dependencies := by
        unfold OwnDependencies
        decide
      splitParents := by decide
      activeTask := nofun
      currentMilestone := nofun }

/-- Two projects are accepted on which the scheduler cannot rely: in one the done task is not among the
completed ones, in the other a task depends on a member that every object inherits. -/
theorem unlistedDone_accepted :
    (validateProjectState (doneTask []) = [] ∧ ¬ (doneTask []).SchedulerSound) ∧
      validateProjectState inheritedDependency = [] ∧ ¬ inheritedDependency.SchedulerSound := by
  refine ⟨⟨by decide, fun h => ?_⟩, by decide, fun h => ?_⟩
  · have hmem : { sampleTask "T-1" [] ["The grammar is read"] with status := .done } ∈
        (doneTask []).backlog.tasks.values := by
      decide
    have hlisted := (h.done_iff _ hmem).mp rfl
    have hnone : (doneTask []).execution.completedTaskIds = [] := rfl
    rw [hnone] at hlisted
    cases hlisted
  · have hmem : sampleTask "T-1" ["constructor"] ["reads"] ∈
        inheritedDependency.backlog.tasks.values := by
      decide
    have hkey := h.dependencies _ hmem "constructor" List.mem_cons_self
    revert hkey
    decide

end ProjectState

end AiOrchestrator
