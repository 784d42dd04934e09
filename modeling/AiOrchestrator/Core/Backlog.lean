import AiOrchestrator.Lib.Dict
import AiOrchestrator.Lib.Text

/-!
# The backlog

Epics, features and tasks, the record-local checks on a task and the predicate
that makes a task eligible for execution (`packages/core/src/backlog.ts`).

The maps of the backlog are keyed by strings. Nothing in the data type says that
a task is stored under its own id; where a result needs it, it is a clause of an
invariant (`Backlog.KeysAreIds`).
-/

namespace AiOrchestrator

/-- `Record<string, α>`: an object used as a map. New keys are appended, as the
object literals of the program do for keys that are not array indices. -/
abbrev Record (α : Type) := Dict String α

/-! ### Lookups in an object -/

/-- The names under which every object finds a member of `Object.prototype`. -/
def inheritedNames : List String :=
  ["constructor", "__defineGetter__", "__defineSetter__", "hasOwnProperty", "__lookupGetter__",
    "__lookupSetter__", "isPrototypeOf", "propertyIsEnumerable", "toString", "valueOf",
    "__proto__", "toLocaleString"]

/-- `record[key]` finds something: an entry, or a member that every object inherits. -/
def Record.finds {α : Type} (record : Record α) (key : String) : Bool :=
  (record.get? key).isSome || inheritedNames.contains key

/-- **A reference that a lookup finds**: a key of the object or an inherited name. -/
def Record.Finds {α : Type} (record : Record α) (key : String) : Prop :=
  key ∈ record.keys ∨ key ∈ inheritedNames

theorem Record.finds_iff {α : Type} {record : Record α} {key : String} :
    record.finds key = true ↔ record.Finds key := by
  rw [Record.finds, Record.Finds, Bool.or_eq_true, Dict.isSome_get?_iff, List.contains_iff_mem]

theorem Record.finds_eq_false_iff {α : Type} {record : Record α} {key : String} :
    record.finds key = false ↔ ¬ record.Finds key := by
  rw [← Record.finds_iff, Bool.not_eq_true]

/-- A larger object finds what a smaller one does. -/
theorem Record.Finds.mono {α β : Type} {record : Record α} {larger : Record β} {key : String}
    (h : record.Finds key) (hkeys : ∀ j ∈ record.keys, j ∈ larger.keys) : larger.Finds key :=
  h.imp (hkeys key) id

/-! ### The data -/

inductive BacklogTaskKind
  | bootstrap | analysis | architecture | planning | implementation | review | testing
  | documentation | release
deriving DecidableEq, Repr

inductive BacklogTaskStatus
  | todo | inProgress | review | testing | done | blocked | superseded
deriving DecidableEq, Repr

/-- The status of an epic: no `review`, no `testing`. -/
inductive EpicStatus
  | todo | inProgress | done | blocked | superseded
deriving DecidableEq, Repr

inductive Priority
  | p0 | p1 | p2 | p3
deriving DecidableEq, Repr

inductive EstimatedRisk
  | low | medium | high
deriving DecidableEq, Repr

structure Epic where
  id : String
  title : String
  goal : String
  status : EpicStatus
  featureIds : List String
deriving DecidableEq

structure Feature where
  id : String
  epicId : String
  title : String
  outcome : String
  risks : List String
  taskIds : List String
deriving DecidableEq

structure BacklogTask where
  id : String
  featureId : String
  splitFromTaskId : Option String
  title : String
  kind : BacklogTaskKind
  status : BacklogTaskStatus
  priority : Priority
  dependsOn : List String
  acceptanceCriteria : List String
  affectedModules : List String
  estimatedRisk : EstimatedRisk
deriving DecidableEq

structure Backlog where
  epics : Record Epic
  features : Record Feature
  tasks : Record BacklogTask
deriving DecidableEq

/-- The weight by which the selector orders priorities. -/
def priorityWeight : Priority → Nat
  | .p0 => 400
  | .p1 => 300
  | .p2 => 200
  | .p3 => 100

/-- Whether an optional string is present and non-empty, as a condition reads it. -/
def truthy : Option String → Bool
  | some s => s != ""
  | none => false

/-- The issues of a task on its own. The check on a missing kind cannot fail: the kind
is one of the nine. -/
def validateBacklogTask (task : BacklogTask) : List String :=
  (if task.acceptanceCriteria.length = 0 then
    [s!"Task {task.id} must declare acceptance criteria"] else []) ++
  (if task.splitFromTaskId = some task.id then
    [s!"Task {task.id} cannot split from itself"] else [])

/-- **Executable task**: todo, not blocked, sound on its own, and all dependencies
completed. -/
def isExecutableTask (completedTaskIds blockedTaskIds : List String) (task : BacklogTask) : Bool :=
  task.status = .todo && !blockedTaskIds.contains task.id &&
    (validateBacklogTask task).isEmpty &&
    task.dependsOn.all fun dependency => completedTaskIds.contains dependency

theorem validateBacklogTask_eq_nil_iff {task : BacklogTask} :
    validateBacklogTask task = [] ↔
      task.acceptanceCriteria ≠ [] ∧ task.splitFromTaskId ≠ some task.id := by
  unfold validateBacklogTask
  by_cases h₁ : task.acceptanceCriteria = [] <;> by_cases h₂ : task.splitFromTaskId = some task.id <;>
    simp [h₁, h₂]

theorem isExecutableTask_iff {completed blocked : List String} {task : BacklogTask} :
    isExecutableTask completed blocked task = true ↔
      task.status = .todo ∧ task.id ∉ blocked ∧ validateBacklogTask task = [] ∧
        ∀ dependency ∈ task.dependsOn, dependency ∈ completed := by
  simp [isExecutableTask, and_assoc]

end AiOrchestrator
