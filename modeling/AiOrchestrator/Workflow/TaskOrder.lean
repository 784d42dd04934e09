import AiOrchestrator.Lib.Sorting
import AiOrchestrator.Workflow.Policies
import Mathlib.Data.List.Perm.Basic

/-!
# The order of selection

The comparison by which `selectNextTask` sorts (`compareTasks`), read as an order: by
priority, split children first, fewer retries, and the id in the order of `localeCompare`
(`BacklogTask.Precedes`). The comparison follows that order as long as the retry counts are
numbers; a task whose count is not one is equal to every other task of its class
(`compareClasses`), so that the first of them in the map is selected.

Where the tasks of the foremost class are alone or all have counts (`RetriesComparable`) and
`localeCompare` orders the ids totally, the head of the sorted list is the one executable task that
precedes all others, however the tasks and the lists of completed and blocked ids are stored
(`ProjectState.Reordered`). Where it is not so, the selection depends on the order of the map.
-/

namespace AiOrchestrator

/-- **The order of selection**: a higher priority, then a split child, then fewer retries, then
the smaller id. -/
def BacklogTask.Precedes (host : Host) (state : ProjectState) (left right : BacklogTask) : Prop :=
  priorityWeight right.priority < priorityWeight left.priority ∨
    priorityWeight right.priority = priorityWeight left.priority ∧
      (truthy left.splitFromTaskId = true ∧ truthy right.splitFromTaskId = false ∨
        truthy left.splitFromTaskId = truthy right.splitFromTaskId ∧
          (state.retryCount left.id < state.retryCount right.id ∨
            state.retryCount left.id = state.retryCount right.id ∧
              host.localeCompare left.id right.id = .lt))

/-- The first two criteria of the comparison: the priority and whether a task is a split child. -/
def compareClasses (left right : BacklogTask) : Ordering :=
  (compare (priorityWeight right.priority) (priorityWeight left.priority)).then <|
  compare (truthy right.splitFromTaskId).toNat (truthy left.splitFromTaskId).toNat

/-- The comparison with the retry counts as numbers. -/
def compareCounted (host : Host) (state : ProjectState) (left right : BacklogTask) : Ordering :=
  (compareClasses left right).then <|
  (compare (state.retryCount left.id) (state.retryCount right.id)).then <|
  host.localeCompare left.id right.id

theorem compareCounted_eq_lt_iff {host : Host} {state : ProjectState} {left right : BacklogTask} :
    compareCounted host state left right = .lt ↔ left.Precedes host state right := by
  have hsplit : ∀ a b : Bool, (b.toNat < a.toNat ↔ a = true ∧ b = false) ∧
      (b.toNat = a.toNat ↔ a = b) := by
    decide
  have hclasses : ∀ a b c d : Prop, (a ∨ b ∧ c) ∨ (b ∧ d) ↔ a ∨ b ∧ (c ∨ d) := by
    intro a b c d
    rw [or_assoc, ← and_or_left]
  unfold compareCounted compareClasses BacklogTask.Precedes
  rw [Ordering.then_eq_lt, Ordering.then_eq_lt, Ordering.then_eq_lt, Ordering.then_eq_eq,
    Nat.compare_eq_lt, Nat.compare_eq_eq, Nat.compare_eq_lt, Nat.compare_eq_eq, Nat.compare_eq_lt,
    Nat.compare_eq_eq, (hsplit _ _).1, (hsplit _ _).2, and_assoc, hclasses]

/-- The comparison of two tasks with counts. -/
theorem compareTasks_of_counted {host : Host} {state : ProjectState} {left right : BacklogTask}
    (hleft : state.RetryCounted left.id) (hright : state.RetryCounted right.id) :
    compareTasks host state left right = compareCounted host state left right := by
  rw [compareTasks, if_pos ⟨hleft, hright⟩, compareCounted, compareClasses, Ordering.then_assoc]

/-- Where one of two tasks has no count, only their classes are compared. -/
theorem compareTasks_of_not_counted {host : Host} {state : ProjectState} {left right : BacklogTask}
    (h : ¬ (state.RetryCounted left.id ∧ state.RetryCounted right.id)) :
    compareTasks host state left right = compareClasses left right := by
  rw [compareTasks, if_neg h, Ordering.then_eq]
  rfl

/-- Tasks of different classes are compared by their classes. -/
theorem compareTasks_of_classes {host : Host} {state : ProjectState} {left right : BacklogTask}
    (h : compareClasses left right ≠ .eq) :
    compareTasks host state left right = compareClasses left right := by
  unfold compareTasks
  rw [← Ordering.then_assoc]
  show (compareClasses left right).then _ = compareClasses left right
  cases hclass : compareClasses left right with
  | eq => exact absurd hclass h
  | lt => rfl
  | gt => rfl

instance : Std.TransCmp compareClasses := by
  have hpriority : Std.TransCmp fun left right : BacklogTask =>
      compareOn (fun task => priorityWeight task.priority) right left := Std.TransCmp.opposite
  have hsplit : Std.TransCmp fun left right : BacklogTask =>
      compareOn (fun task => (truthy task.splitFromTaskId).toNat) right left :=
    Std.TransCmp.opposite
  exact inferInstanceAs (Std.TransCmp (compareLex
    (fun left right : BacklogTask => compareOn (fun task => priorityWeight task.priority) right left)
    fun left right => compareOn (fun task => (truthy task.splitFromTaskId).toNat) right left))

/-- States that differ in the order in which tasks, completed ids and blocked ids are stored,
as far as the selection reads them. -/
structure ProjectState.Reordered (state state' : ProjectState) : Prop where
  tasks : state'.backlog.tasks.entries.Perm state.backlog.tasks.entries
  completed : state'.execution.completedTaskIds.Perm state.execution.completedTaskIds
  blocked : state'.execution.blockedTaskIds.Perm state.execution.blockedTaskIds
  retryCounts : state'.execution.retryCounts = state.execution.retryCounts

/-- A task of the backlog that can be executed. -/
structure ProjectState.Selectable (state : ProjectState) (task : BacklogTask) : Prop where
  stored : task ∈ state.backlog.tasks.values
  executable : isExecutableTask state.execution.completedTaskIds state.execution.blockedTaskIds
    task = true

/-- No executable task has a higher priority, or is a split child where this one is not. -/
def ProjectState.Foremost (state : ProjectState) (task : BacklogTask) : Prop :=
  ∀ other, state.Selectable other → compareClasses other task ≠ .lt

/-- **Comparable retries**: where several executable tasks are foremost, each has a retry count that
is a number. -/
def ProjectState.RetriesComparable (state : ProjectState) : Prop :=
  ∀ task other, state.Selectable task → state.Selectable other → state.Foremost task →
    state.Foremost other → task.id ≠ other.id → state.RetryCounted task.id

section Order

variable {host : Host} (state : ProjectState)

/-- The comparison is the lexicographic one of three. -/
theorem compareCounted_eq_compareLex :
    compareCounted host state =
      compareLex compareClasses
        (compareLex (compareOn fun task : BacklogTask => state.retryCount task.id)
          (fun left right : BacklogTask => host.localeCompare left.id right.id)) :=
  rfl

instance [Std.TransCmp host.localeCompare] : Std.TransCmp (compareCounted host state) := by
  have hid : Std.TransCmp fun left right : BacklogTask => host.localeCompare left.id right.id :=
    { eq_swap := Std.OrientedCmp.eq_swap
      isLE_trans := Std.TransCmp.isLE_trans }
  rw [compareCounted_eq_compareLex]
  infer_instance

/-- Tasks that the comparison cannot tell apart have the same id. -/
theorem id_eq_of_compareCounted [Std.LawfulEqCmp host.localeCompare] {left right : BacklogTask}
    (h : compareCounted host state left right = .eq) : left.id = right.id := by
  unfold compareCounted at h
  rw [Ordering.then_eq_eq, Ordering.then_eq_eq] at h
  exact Std.LawfulEqCmp.eq_of_compare h.2.2

theorem BacklogTask.Precedes.asymm [Std.TransCmp host.localeCompare] {left right : BacklogTask}
    (h : left.Precedes host state right) : ¬ right.Precedes host state left := by
  rw [← compareCounted_eq_lt_iff] at h ⊢
  rw [Std.OrientedCmp.gt_of_lt h]
  decide

end Order

/-! ### The head of the sorted list -/

section Selection

variable {host : Host} {state : ProjectState}

theorem selectable_of_mem {entry : String × BacklogTask} (h : entry ∈ executableEntries state) :
    state.Selectable entry.2 := by
  obtain ⟨hget, hexecutable⟩ := mem_executableEntries.mp h
  exact ⟨Dict.mem_values_of_get? hget, hexecutable⟩

theorem ProjectState.Selectable.exists_mem {task : BacklogTask} (h : state.Selectable task) :
    ∃ key, (key, task) ∈ executableEntries state := by
  obtain ⟨key, hget⟩ := Dict.mem_values_iff.mp h.stored
  exact ⟨key, mem_executableEntries.mpr ⟨hget, h.executable⟩⟩

/-- A task is selected as soon as one is executable. -/
theorem exists_selectNextTask_iff :
    (∃ task, selectNextTask host state = some task) ↔ ∃ task, state.Selectable task := by
  rw [← Option.isSome_iff_exists, selectNextTask_isSome_iff]
  constructor
  · rintro ⟨entry, hmem⟩
    exact ⟨entry.2, selectable_of_mem hmem⟩
  · rintro ⟨task, h⟩
    obtain ⟨key, hmem⟩ := h.exists_mem
    exact ⟨(key, task), hmem⟩

/-- The selected task is an executable task of the backlog. -/
theorem selectable_of_selectNextTask {task : BacklogTask}
    (h : selectNextTask host state = some task) : state.Selectable task := by
  obtain ⟨entry, hentry, rfl⟩ := Option.map_eq_some_iff.mp h
  exact selectable_of_mem (selectNextEntry_mem hentry)

/-- A foremost task comes before one that is not, whatever their retry counts. -/
theorem ProjectState.Foremost.before {task other : BacklogTask} (h : state.Foremost task)
    (hnot : ¬ state.Foremost other) : compareClasses task other = .lt := by
  unfold ProjectState.Foremost at hnot
  push Not at hnot
  obtain ⟨third, hthird, hlt⟩ := hnot
  have hle : (compareClasses task third).isLE := by
    rw [Ordering.isLE_iff_ne_gt]
    exact fun hgt => h third hthird (Std.OrientedCmp.lt_of_gt hgt)
  exact Std.TransCmp.lt_of_isLE_of_lt hle hlt

/-- A foremost task need not follow any other one that can be executed. -/
theorem ProjectState.Foremost.compareClasses_ne_gt {task other : BacklogTask}
    (h : state.Foremost task) (hother : state.Selectable other) :
    compareClasses task other ≠ .gt :=
  fun hgt => h other hother (Std.OrientedCmp.lt_of_gt hgt)

/-- The selected entry is the head of the sorted foremost ones. -/
theorem selectNextEntry_foremost [DecidablePred state.Foremost] {entry : String × BacklogTask}
    (h : selectNextEntry host state = some entry) :
    (((executableEntries state).filter fun e => state.Foremost e.2).insertionSort fun left right =>
      compareTasks host state left.2 right.2 ≠ .gt).head? = some entry := by
  -- the head of the sort by classes is foremost
  obtain ⟨least, hleast⟩ := Sorting.exists_head?_insertionSort
    (r := fun left right : String × BacklogTask => compareClasses left.2 right.2 ≠ .gt)
    (selectNextEntry_mem h)
  have hforemost : state.Foremost least.2 := by
    intro other hother hlt
    obtain ⟨key, hin⟩ := hother.exists_mem
    exact Sorting.head?_insertionSort_least (f := Prod.snd) hleast hin (Std.OrientedCmp.gt_of_lt hlt)
  have hmem : least ∈ (executableEntries state).filter fun e => state.Foremost e.2 :=
    List.mem_filter.mpr ⟨Sorting.mem_of_head?_insertionSort hleast, decide_eq_true hforemost⟩
  obtain ⟨first, hfirst⟩ := Sorting.exists_head?_insertionSort
    (r := fun left right : String × BacklogTask => compareTasks host state left.2 right.2 ≠ .gt) hmem
  have hall : selectNextEntry host state = some first := by
    refine Sorting.head?_insertionSort_filter (p := fun e => state.Foremost e.2) ?_ ?_ hfirst
    · intro a _ b _ hpa hpb
      have hlt := (of_decide_eq_true hpa).before (of_decide_eq_false hpb)
      rw [compareTasks_of_classes (by rw [hlt]; decide), hlt]
      decide
    · intro a _ b _ hpa hpb hle
      have hlt := (of_decide_eq_true hpb).before (of_decide_eq_false hpa)
      have hgt := Std.OrientedCmp.gt_of_lt hlt
      rw [compareTasks_of_classes (by rw [hgt]; decide)] at hle
      exact hle hgt
  rw [hfirst, ← hall, h]

/-- **The selected task precedes every other executable one**, where no two tasks have one
id and the retries of the foremost ones can be compared. -/
theorem precedes_of_selectNextTask [Std.TransCmp host.localeCompare]
    [Std.LawfulEqCmp host.localeCompare]
    (hdistinct : (state.backlog.tasks.values.map BacklogTask.id).Nodup)
    (hcomparable : state.RetriesComparable) {task other : BacklogTask}
    (h : selectNextTask host state = some task) (hother : state.Selectable other)
    (hne : other ≠ task) : task.Precedes host state other := by
  classical
  have htask := selectable_of_selectNextTask h
  obtain ⟨entry, hentry, rfl⟩ := Option.map_eq_some_iff.mp h
  have hid : other.id ≠ entry.2.id := fun heq =>
    hne (List.inj_on_of_nodup_map hdistinct hother.stored htask.stored heq)
  have hhead := selectNextEntry_foremost hentry
  have hforemost : state.Foremost entry.2 := by
    have hmem := Sorting.mem_of_head?_insertionSort hhead
    exact of_decide_eq_true (List.mem_filter.mp hmem).2
  rw [← compareCounted_eq_lt_iff]
  -- The classes alone decide between a foremost task and another one, so only the foremost need
  -- counts.
  by_cases hclass : state.Foremost other
  · -- two foremost tasks: all of them have counts, and the sort follows the order
    have hcounted : ∀ e ∈ (executableEntries state).filter fun e => state.Foremost e.2,
        state.RetryCounted e.2.id := by
      intro e he
      obtain ⟨hin, hpe⟩ := List.mem_filter.mp he
      have hselectable := selectable_of_mem hin
      by_cases hsame : e.2.id = entry.2.id
      · rw [hsame]
        exact hcomparable _ _ htask hother hforemost hclass hid.symm
      · exact hcomparable _ _ hselectable htask (of_decide_eq_true hpe) hforemost hsame
    rw [Sorting.insertionSort_congr (s := fun left right : String × BacklogTask =>
      compareCounted host state left.2 right.2 ≠ .gt) fun a ha b hb => by
        rw [compareTasks_of_counted (hcounted a ha) (hcounted b hb)]] at hhead
    obtain ⟨key, hkey⟩ := hother.exists_mem
    have hleast := Sorting.head?_insertionSort_least (f := Prod.snd) hhead
      (List.mem_filter.mpr ⟨hkey, decide_eq_true hclass⟩)
    cases hcompare : compareCounted host state entry.2 other with
    | lt => rfl
    | gt => exact absurd hcompare hleast
    | eq => exact absurd (id_eq_of_compareCounted state hcompare).symm hid
  · rw [compareCounted, hforemost.before hclass]
    rfl

/-! ### Stored in another order -/

theorem ProjectState.Reordered.selectable_iff {state' : ProjectState}
    (h : state.Reordered state') {task : BacklogTask} :
    state'.Selectable task ↔ state.Selectable task := by
  have hstored : task ∈ state'.backlog.tasks.values ↔ task ∈ state.backlog.tasks.values :=
    (h.tasks.map Prod.snd).mem_iff
  have hexecutable : isExecutableTask state'.execution.completedTaskIds
      state'.execution.blockedTaskIds task = true ↔
      isExecutableTask state.execution.completedTaskIds state.execution.blockedTaskIds task =
        true := by
    rw [isExecutableTask_iff, isExecutableTask_iff]
    simp only [h.blocked.mem_iff, h.completed.mem_iff]
  constructor
  · rintro ⟨hmem, hexec⟩
    exact ⟨hstored.mp hmem, hexecutable.mp hexec⟩
  · rintro ⟨hmem, hexec⟩
    exact ⟨hstored.mpr hmem, hexecutable.mpr hexec⟩

theorem ProjectState.Reordered.foremost_iff {state' : ProjectState}
    (h : state.Reordered state') {task : BacklogTask} :
    state'.Foremost task ↔ state.Foremost task :=
  forall_congr' fun _ => imp_congr_left h.selectable_iff

theorem ProjectState.Reordered.retryCounted_iff {state' : ProjectState}
    (h : state.Reordered state') {id : String} :
    state'.RetryCounted id ↔ state.RetryCounted id := by
  unfold ProjectState.RetryCounted
  rw [h.retryCounts]

theorem ProjectState.Reordered.comparable {state' : ProjectState} (h : state.Reordered state')
    (hcomparable : state.RetriesComparable) : state'.RetriesComparable := by
  intro task other htask hother hforemost hforemost' hne
  exact h.retryCounted_iff.mpr (hcomparable task other (h.selectable_iff.mp htask)
    (h.selectable_iff.mp hother) (h.foremost_iff.mp hforemost) (h.foremost_iff.mp hforemost') hne)

theorem ProjectState.Reordered.precedes_iff {state' : ProjectState}
    (h : state.Reordered state') {left right : BacklogTask} :
    left.Precedes host state' right ↔ left.Precedes host state right := by
  unfold BacklogTask.Precedes ProjectState.retryCount
  rw [h.retryCounts]

/-- **The selection does not depend on the order of storage**, where the retries can be
compared. -/
theorem selectNextTask_reordered [Std.TransCmp host.localeCompare]
    [Std.LawfulEqCmp host.localeCompare]
    (hdistinct : (state.backlog.tasks.values.map BacklogTask.id).Nodup)
    (hcomparable : state.RetriesComparable) {state' : ProjectState} (h : state.Reordered state') :
    selectNextTask host state' = selectNextTask host state := by
  have hdistinct' : (state'.backlog.tasks.values.map BacklogTask.id).Nodup :=
    ((h.tasks.map Prod.snd).map BacklogTask.id).nodup_iff.mpr hdistinct
  have hsome : (∃ task, selectNextTask host state' = some task) ↔
      ∃ task, selectNextTask host state = some task := by
    rw [exists_selectNextTask_iff, exists_selectNextTask_iff]
    exact exists_congr fun _ => h.selectable_iff
  cases hselect : selectNextTask host state with
  | none =>
    cases hselect' : selectNextTask host state' with
    | none => rfl
    | some task =>
      obtain ⟨other, hother⟩ := hsome.mp ⟨task, hselect'⟩
      rw [hselect] at hother
      cases hother
  | some task =>
    obtain ⟨task', hselect'⟩ := hsome.mpr ⟨task, hselect⟩
    rw [hselect']
    -- each of two different tasks would precede the other
    by_contra hdiffer
    have hne : task' ≠ task := fun heq => hdiffer (congrArg some heq)
    have hbefore := precedes_of_selectNextTask hdistinct hcomparable hselect
      (h.selectable_iff.mp (selectable_of_selectNextTask hselect')) hne
    have hbefore' := precedes_of_selectNextTask hdistinct' (h.comparable hcomparable) hselect'
      (h.selectable_iff.mpr (selectable_of_selectNextTask hselect)) hne.symm
    exact hbefore.asymm state (h.precedes_iff.mp hbefore')

/-! ### Where the order of storage decides -/

/-- A foremost task without a count is selected when it is the first in the map. -/
theorem head?_of_not_counted {entry : String × BacklogTask} {rest : List (String × BacklogTask)}
    (hrest : ∀ other ∈ rest, state.Selectable other.2) (hforemost : state.Foremost entry.2)
    (hnot : ¬ state.RetryCounted entry.2.id) :
    ((entry :: rest).insertionSort fun left right =>
      compareTasks host state left.2 right.2 ≠ .gt).head? = some entry := by
  refine Sorting.head?_insertionSort_of_first fun other hother => ?_
  rw [compareTasks_of_not_counted fun h => hnot h.1]
  exact hforemost.compareClasses_ne_gt (hrest other hother)

/-- **With its tasks in another order.** -/
def ProjectState.reorder (state : ProjectState) (entries : List (String × BacklogTask))
    (h : entries.Perm state.backlog.tasks.entries) : ProjectState :=
  { state with
    backlog :=
      { state.backlog with
        tasks := ⟨entries, (h.map Prod.fst).nodup_iff.mpr state.backlog.tasks.nodup⟩ } }

theorem ProjectState.reordered_reorder {entries : List (String × BacklogTask)}
    (h : entries.Perm state.backlog.tasks.entries) : state.Reordered (state.reorder entries h) :=
  ⟨h, List.Perm.refl _, List.Perm.refl _, rfl⟩

/-- Two elements of a list can be moved to its front. -/
theorem perm_cons_cons_erase {α : Type} [BEq α] [LawfulBEq α] {a b : α} {l : List α} (ha : a ∈ l)
    (hb : b ∈ l) (hne : b ≠ a) : (a :: b :: (l.erase a).erase b).Perm l :=
  calc a :: b :: (l.erase a).erase b
    _ |>.Perm (a :: l.erase a) :=
      (List.perm_cons_erase ((List.mem_erase_of_ne hne).mpr hb)).symm.cons a
    _ |>.Perm l := (List.perm_cons_erase ha).symm

/-- **A selection that never depends on the order of storage** has comparable retries: of two
foremost tasks, one of them without a count, the first in the map is selected. -/
theorem retriesComparable_of_independent
    (h : ∀ state', state.Reordered state' → selectNextTask host state' = selectNextTask host state) :
    state.RetriesComparable := by
  intro task other htask hother hforemost hforemost' hne
  by_contra hnot
  obtain ⟨key, hkey⟩ := htask.exists_mem
  obtain ⟨key', hkey'⟩ := hother.exists_mem
  have hdiffer : (key', other) ≠ (key, task) := fun heq => hne (congrArg (·.2.id) heq).symm
  obtain ⟨hstored, hexecutable⟩ := List.mem_filter.mp hkey
  obtain ⟨hstored', hexecutable'⟩ := List.mem_filter.mp hkey'
  -- The backlog in two orders: the two tasks in front, one way round and the other.
  let rest := (state.backlog.tasks.entries.erase (key, task)).erase (key', other)
  have hfirst : ((key, task) :: (key', other) :: rest).Perm state.backlog.tasks.entries :=
    perm_cons_cons_erase hstored hstored' hdiffer
  have hsecond : ((key', other) :: (key, task) :: rest).Perm state.backlog.tasks.entries :=
    (List.Perm.swap _ _ _).trans hfirst
  let executable : String × BacklogTask → Bool := fun entry =>
    isExecutableTask state.execution.completedTaskIds state.execution.blockedTaskIds entry.2
  have hselectable : ∀ e ∈ rest.filter executable, state.Selectable e.2 := by
    intro e he
    obtain ⟨hin, hexec⟩ := List.mem_filter.mp he
    have hmem : e ∈ state.backlog.tasks.entries :=
      List.mem_of_mem_erase (List.mem_of_mem_erase hin)
    exact ⟨List.mem_map.mpr ⟨e, hmem, rfl⟩, hexec⟩
  have hhead : ∀ left right : String × BacklogTask, executable left = true →
      executable right = true → (left :: right :: rest).filter executable =
        left :: right :: rest.filter executable := fun left right hleft hright => by
    rw [List.filter_cons_of_pos hleft, List.filter_cons_of_pos hright]
  -- stored first, the task without a count is selected
  have hselect : selectNextEntry host (state.reorder _ hfirst) = some (key, task) := by
    show (((key, task) :: (key', other) :: rest).filter executable |>.insertionSort fun left right =>
      compareTasks host state left.2 right.2 ≠ .gt).head? = _
    rw [hhead _ _ hexecutable hexecutable']
    refine head?_of_not_counted (fun e he => ?_) hforemost hnot
    rcases List.mem_cons.mp he with rfl | he
    · exact hother
    · exact hselectable e he
  -- stored behind the other one, it is not
  have hselect' : selectNextEntry host (state.reorder _ hsecond) = some (key', other) := by
    show (((key', other) :: (key, task) :: rest).filter executable |>.insertionSort fun left right =>
      compareTasks host state left.2 right.2 ≠ .gt).head? = _
    rw [hhead _ _ hexecutable' hexecutable, Sorting.head?_insertionSort_cons,
      head?_of_not_counted hselectable hforemost hnot]
    refine if_pos ?_
    rw [compareTasks_of_not_counted fun h => hnot h.2]
    exact hforemost'.compareClasses_ne_gt htask
  have hsame := (h _ (state.reordered_reorder hfirst)).trans
    (h _ (state.reordered_reorder hsecond)).symm
  rw [selectNextTask, selectNextTask, hselect, hselect'] at hsame
  exact hne (congrArg BacklogTask.id (Option.some.inj hsame))

end Selection

end AiOrchestrator
