import AiOrchestrator.Lib.Dict
import Mathlib.Data.List.Induction

/-!
# Rolling samples up by a key

A loop over samples that keeps one row for each key: the first sample of a key begins its row, every further one is
added to it (`rollup`). The row of a key depends on the samples of that key alone, in their order
(`get?_rollup`), so what is wanted of a row is an induction over one bucket (`summary_concat`).
-/

namespace Rollup

variable {κ α β : Type} [DecidableEq κ] (key : α → κ) (first : α → β) (add : β → α → β)

/-- One sample. -/
def count (rows : Dict κ β) (a : α) : Dict κ β :=
  match rows.get? (key a) with
  | none => rows.set (key a) (first a)
  | some row => rows.set (key a) (add row a)

/-- **The rows** of a list of samples. -/
def rollup (samples : List α) : Dict κ β := samples.foldl (count key first add) ∅

/-- The row of the samples of one key. -/
def summary : List α → Option β
  | [] => none
  | a :: samples => some (samples.foldl add (first a))

omit [DecidableEq κ] in
/-- A further sample is added to the row, or begins it. -/
theorem summary_concat (samples : List α) (a : α) :
    summary first add (samples ++ [a]) =
      some (((summary first add samples).map fun row => add row a).getD (first a)) := by
  cases samples with
  | nil => rfl
  | cons b samples =>
    show some ((samples ++ [a]).foldl add (first b)) = _
    rw [List.foldl_append]
    rfl

theorem summary_eq_none_iff {samples : List α} : summary first add samples = none ↔ samples = [] := by
  cases samples with
  | nil => exact iff_of_true rfl rfl
  | cons a samples => exact iff_of_false nofun nofun

/-- One sample changes the row of its key. -/
theorem get?_count (rows : Dict κ β) (a : α) (k : κ) :
    (count key first add rows a).get? k =
      if k = key a then some (((rows.get? k).map fun row => add row a).getD (first a))
      else rows.get? k := by
  unfold count
  split
  · next hnone =>
    rw [Dict.get?_set]
    split_ifs with hk
    · rw [hk, hnone]
      rfl
    · rfl
  · next row hrow =>
    rw [Dict.get?_set]
    split_ifs with hk
    · rw [hk, hrow]
      rfl
    · rfl

/-- **The row of a key** is the summary of the samples of that key. -/
theorem get?_rollup (samples : List α) (k : κ) :
    (rollup key first add samples).get? k = summary first add (samples.filter fun a => key a = k) := by
  induction samples using List.reverseRecOn with
  | nil => rfl
  | append_singleton samples a ih =>
    have hfold : rollup key first add (samples ++ [a]) =
        count key first add (rollup key first add samples) a := List.foldl_concat ..
    rw [hfold, get?_count, ih, List.filter_append]
    split_ifs with hk
    · have hone : [a].filter (fun a => key a = k) = [a] :=
        List.filter_cons_of_pos (decide_eq_true hk.symm)
      rw [hone, summary_concat]
    · have hnone : [a].filter (fun a => key a = k) = [] :=
        List.filter_cons_of_neg fun h => hk (of_decide_eq_true h).symm
      rw [hnone, List.append_nil]

/-- There is a row for every key of a sample, and for no other key. -/
theorem mem_keys_rollup {samples : List α} {k : κ} :
    k ∈ (rollup key first add samples).keys ↔ ∃ a ∈ samples, key a = k := by
  rw [← not_iff_not, ← Dict.get?_eq_none_iff, get?_rollup, summary_eq_none_iff, List.filter_eq_nil_iff]
  simp only [decide_eq_true_eq, not_exists, not_and]

end Rollup
