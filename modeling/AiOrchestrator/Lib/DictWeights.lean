import AiOrchestrator.Lib.Dict
import Mathlib.Algebra.Order.BigOperators.Group.List
import Mathlib.Algebra.Order.Ring.Nat

/-!
# Weights of dictionaries

The sum of a weight over the entries of a dictionary, and what the operations do to it: a new entry
adds its weight (`weight_set_of_notMem`), and a change at one key changes the sum by the difference
(`weight_update`, `weight_modify`). Where few keys have a weight, the sum is made up of theirs
(`weight_le_of_keys`).
-/

namespace Dict

variable {κ α β : Type}

/-- The sum of the weights of the entries. -/
def weight (d : Dict κ α) (f : κ → α → Nat) : Nat := (d.entries.map fun e => f e.1 e.2).sum

theorem weight_mapVals (d : Dict κ α) (g : κ → α → β) (f : κ → β → Nat) :
    (d.mapVals g).weight f = d.weight fun k v => f k (g k v) := by
  unfold weight
  rw [entries_mapVals, List.map_map]
  rfl

variable [DecidableEq κ]

theorem weight_congr {d : Dict κ α} {f f' : κ → α → Nat}
    (h : ∀ k v, d.get? k = some v → f k v = f' k v) : d.weight f = d.weight f' := by
  refine congrArg List.sum (List.map_congr_left fun e he => ?_)
  exact h e.1 e.2 (get?_eq_some_iff.mpr he)

theorem weight_set_of_notMem {d : Dict κ α} {k : κ} (hk : k ∉ d.keys) (v : α) (f : κ → α → Nat) :
    (d.set k v).weight f = d.weight f + f k v := by
  unfold weight
  rw [entries_set_of_notMem hk, List.map_append, List.sum_append, List.map_singleton,
    List.sum_singleton]

/-- A change of the weights at one key changes the sum by the difference. -/
theorem weight_update {d : Dict κ α} {k : κ} {v : α} (f f' : κ → α → Nat)
    (hget : d.get? k = some v) (h : ∀ j w, j ≠ k → d.get? j = some w → f' j w = f j w) :
    d.weight f' + f k v = d.weight f + f' k v := by
  have hsum : ∀ entries : List (κ × α), (entries.map Prod.fst).Nodup → (k, v) ∈ entries →
      (∀ e ∈ entries, e.1 ≠ k → f' e.1 e.2 = f e.1 e.2) →
      (entries.map fun e => f' e.1 e.2).sum + f k v =
        (entries.map fun e => f e.1 e.2).sum + f' k v := by
    intro entries hnodup hmem hother
    induction entries with
    | nil => exact absurd hmem List.not_mem_nil
    | cons first entries ih =>
      rw [List.map_cons, List.nodup_cons] at hnodup
      rw [List.map_cons, List.map_cons, List.sum_cons, List.sum_cons]
      rcases List.mem_cons.mp hmem with hfirst | hmem
      · -- The key is that of the first entry, and of no other.
        subst hfirst
        have hrest : (entries.map fun e => f' e.1 e.2) = entries.map fun e => f e.1 e.2 := by
          refine List.map_congr_left fun e he => hother e (List.mem_cons_of_mem _ he) fun heq => ?_
          exact hnodup.1 (List.mem_map.mpr ⟨e, he, heq⟩)
        rw [hrest]
        show f' k v + _ + f k v = f k v + _ + f' k v
        omega
      · have hfirst : first.1 ≠ k := fun heq =>
          hnodup.1 (List.mem_map.mpr ⟨(k, v), hmem, heq.symm⟩)
        have hrest := ih hnodup.2 hmem fun e he => hother e (List.mem_cons_of_mem _ he)
        rw [hother first List.mem_cons_self hfirst]
        omega
  exact hsum d.entries d.nodup (get?_eq_some_iff.mp hget) fun e he hne =>
    h e.1 e.2 hne (get?_eq_some_iff.mpr he)

theorem weight_modify {d : Dict κ α} {k : κ} {v : α} (hget : d.get? k = some v) (g : α → α)
    (f : κ → α → Nat) : (d.modify k g).weight f + f k v = d.weight f + f k (g v) := by
  rw [modify, weight_mapVals]
  have hupdate := weight_update f (fun j w => f j (if j = k then g w else w)) hget
    fun j w hne _ => by rw [if_neg hne]
  simpa using hupdate

/-- A bound of the weights bounds the sum. -/
theorem weight_le_mul {d : Dict κ α} {f : κ → α → Nat} {bound : Nat}
    (h : ∀ k v, d.get? k = some v → f k v ≤ bound) : d.weight f ≤ d.keys.length * bound := by
  have hsum : ∀ entries : List (κ × α), (∀ e ∈ entries, f e.1 e.2 ≤ bound) →
      (entries.map fun e => f e.1 e.2).sum ≤ entries.length * bound := by
    intro entries hentries
    induction entries with
    | nil => exact Nat.zero_le _
    | cons e entries ih =>
      rw [List.map_cons, List.sum_cons, List.length_cons, Nat.succ_mul, Nat.add_comm]
      exact Nat.add_le_add (ih fun e' he' => hentries e' (List.mem_cons_of_mem _ he'))
        (hentries e List.mem_cons_self)
  rw [keys, List.length_map]
  exact hsum d.entries fun e he => h e.1 e.2 (get?_eq_some_iff.mpr he)

/-- Where only some keys have a weight, the sum is made up of theirs. -/
theorem weight_le_of_keys {d : Dict κ α} (keys : List κ) {f : κ → α → Nat}
    (h : ∀ k v, d.get? k = some v → k ∉ keys → f k v = 0) :
    d.weight f ≤ (keys.map fun k => ((d.get? k).map (f k)).getD 0).sum := by
  induction keys generalizing f with
  | nil =>
    have hzero : d.weight f = d.weight fun _ _ => 0 :=
      weight_congr fun k v hget => h k v hget List.not_mem_nil
    rw [hzero]
    simp [weight]
  | cons key keys ih =>
    -- The first key is weighed apart from the others.
    let rest : κ → α → Nat := fun k v => if k = key then 0 else f k v
    have hrest : d.weight rest ≤ (keys.map fun k => ((d.get? k).map (f k)).getD 0).sum := by
      refine (ih (f := rest) fun k v hget hk => ?_).trans (List.sum_le_sum fun k _ => ?_)
      · by_cases heq : k = key
        · exact if_pos heq
        · rw [← h k v hget (List.not_mem_cons_of_ne_of_not_mem heq hk)]
          exact if_neg heq
      · cases hget : d.get? k with
        | none => exact Nat.le_refl _
        | some v =>
          show (if k = key then 0 else f k v) ≤ f k v
          split
          · exact Nat.zero_le _
          · exact Nat.le_refl _
    rw [List.map_cons, List.sum_cons]
    cases hget : d.get? key with
    | none =>
      have hsame : d.weight f = d.weight rest := by
        refine weight_congr fun k v hk => (if_neg ?_).symm
        rintro rfl
        rw [hget] at hk
        cases hk
      rw [hsame]
      exact hrest.trans (Nat.le_add_left _ _)
    | some v =>
      have hupdate := weight_update f rest hget fun j w hne _ => if_neg hne
      have hkey : rest key v = 0 := if_pos rfl
      show d.weight f ≤ f key v + _
      omega

end Dict
