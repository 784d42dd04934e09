import Mathlib.Data.List.Nodup
import Mathlib.Data.List.Dedup

/-!
# Insertion-ordered dictionaries

`Dict κ α` is a dictionary in the sense of the object literals of JavaScript and
of the ordered maps of most scripting languages: a list of entries with distinct
keys, where writing an existing key keeps its position and writing a new one
appends. The distinctness is a field, so a dictionary with two entries for one
key cannot be built and no lemma below carries it as a hypothesis.

* `Dict.get?`, `Dict.set`, `Dict.modify`, `Dict.mapVals` are the operations;
* `get?_set`, `get?_modify`, `get?_mapVals` say what a later read sees;
* `mem_values_iff` and `get?_eq_some_iff` relate the reads to the entry list,
  which is what iteration (`values`) runs over.
-/

/-- **Ordered dictionary**: entries in insertion order, one for each key. -/
structure Dict (κ : Type) (α : Type) where
  /-- The entries, oldest first. -/
  entries : List (κ × α)
  /-- No key occurs twice. -/
  nodup : (entries.map Prod.fst).Nodup
deriving DecidableEq

namespace Dict

variable {κ α β : Type}

/-- The dictionary without entries. -/
def empty : Dict κ α := ⟨[], List.nodup_nil⟩

instance : EmptyCollection (Dict κ α) := ⟨empty⟩

instance : Inhabited (Dict κ α) := ⟨empty⟩

/-- The keys in insertion order. -/
def keys (d : Dict κ α) : List κ := d.entries.map Prod.fst

/-- The values in insertion order of their keys. -/
def values (d : Dict κ α) : List α := d.entries.map Prod.snd

@[simp] theorem entries_empty : (∅ : Dict κ α).entries = [] := rfl

@[simp] theorem keys_empty : (∅ : Dict κ α).keys = [] := rfl

@[simp] theorem values_empty : (∅ : Dict κ α).values = [] := rfl

theorem nodup_keys (d : Dict κ α) : d.keys.Nodup := d.nodup

theorem ext_entries {d e : Dict κ α} (h : d.entries = e.entries) : d = e := by
  cases d
  cases e
  cases h
  rfl

/-- Rewrite every value, knowing its key. -/
def mapVals (d : Dict κ α) (f : κ → α → β) : Dict κ β where
  entries := d.entries.map fun e => (e.1, f e.1 e.2)
  nodup := by
    have : (d.entries.map fun e => (e.1, f e.1 e.2)).map Prod.fst = d.entries.map Prod.fst := by
      simp
    rw [this]
    exact d.nodup

@[simp] theorem keys_mapVals (d : Dict κ α) (f : κ → α → β) : (d.mapVals f).keys = d.keys := by
  simp [keys, mapVals]

@[simp] theorem entries_mapVals (d : Dict κ α) (f : κ → α → β) :
    (d.mapVals f).entries = d.entries.map fun e => (e.1, f e.1 e.2) := rfl

variable [DecidableEq κ]

/-- Read the value stored under a key. -/
def get? (d : Dict κ α) (k : κ) : Option α :=
  (d.entries.find? fun e => e.1 = k).map Prod.snd

/-- Whether a key is present. -/
def contains (d : Dict κ α) (k : κ) : Bool := (d.get? k).isSome

/-- Apply a function to the value under a key, if there is one. -/
def modify (d : Dict κ α) (k : κ) (f : α → α) : Dict κ α :=
  d.mapVals fun k' v => if k' = k then f v else v

/-- Write a value: in place when the key exists, at the end when it is new. -/
def set (d : Dict κ α) (k : κ) (v : α) : Dict κ α :=
  if h : k ∈ d.keys then d.modify k fun _ => v
  else
    { entries := d.entries ++ [(k, v)]
      nodup := by
        rw [List.map_append, List.map_cons, List.map_nil, List.nodup_append]
        refine ⟨d.nodup, List.nodup_singleton k, ?_⟩
        rintro a ha b hb rfl
        rw [List.mem_singleton.mp hb] at ha
        exact h ha }

/-- Remove a key. -/
def erase (d : Dict κ α) (k : κ) : Dict κ α where
  entries := d.entries.filter fun e => e.1 ≠ k
  nodup := d.nodup.sublist (List.filter_sublist.map Prod.fst)

/-! ### Reads and the entry list -/

omit [DecidableEq κ] in
theorem mem_keys_iff {d : Dict κ α} {k : κ} : k ∈ d.keys ↔ ∃ v, (k, v) ∈ d.entries := by
  simp [keys]

omit [DecidableEq κ] in
/-- Two entries with one key are the same entry. -/
theorem entry_unique {d : Dict κ α} {k : κ} {v w : α} (hv : (k, v) ∈ d.entries)
    (hw : (k, w) ∈ d.entries) : v = w := by
  have hinj := List.inj_on_of_nodup_map d.nodup hv hw rfl
  exact (Prod.mk.inj hinj).2

theorem get?_eq_some_iff {d : Dict κ α} {k : κ} {v : α} :
    d.get? k = some v ↔ (k, v) ∈ d.entries := by
  constructor
  · intro h
    obtain ⟨e, hfind, rfl⟩ := Option.map_eq_some_iff.mp h
    have hkey : e.1 = k := by simpa using List.find?_some hfind
    have hmem := List.mem_of_find?_eq_some hfind
    rw [← hkey]
    exact hmem
  · intro h
    cases hfind : d.entries.find? fun e => e.1 = k with
    | none =>
      have := List.find?_eq_none.mp hfind (k, v) h
      simp at this
    | some e =>
      have hkey : e.1 = k := by simpa using List.find?_some hfind
      have hmem : (k, e.2) ∈ d.entries := by
        rw [← hkey]
        exact List.mem_of_find?_eq_some hfind
      rw [get?, hfind, Option.map_some, entry_unique hmem h]

theorem get?_eq_none_iff {d : Dict κ α} {k : κ} : d.get? k = none ↔ k ∉ d.keys := by
  rw [mem_keys_iff]
  constructor
  · rintro h ⟨v, hv⟩
    rw [get?_eq_some_iff.mpr hv] at h
    cases h
  · intro h
    cases hget : d.get? k with
    | none => rfl
    | some v => exact absurd ⟨v, get?_eq_some_iff.mp hget⟩ h

theorem isSome_get?_iff {d : Dict κ α} {k : κ} : (d.get? k).isSome ↔ k ∈ d.keys := by
  rw [← not_iff_not, Bool.not_eq_true, Option.isSome_eq_false_iff, Option.isNone_iff_eq_none,
    get?_eq_none_iff]

theorem exists_get?_iff {d : Dict κ α} {k : κ} : (∃ v, d.get? k = some v) ↔ k ∈ d.keys := by
  rw [← isSome_get?_iff, Option.isSome_iff_exists]

theorem contains_iff {d : Dict κ α} {k : κ} : d.contains k = true ↔ k ∈ d.keys :=
  isSome_get?_iff

theorem mem_values_iff {d : Dict κ α} {v : α} : v ∈ d.values ↔ ∃ k, d.get? k = some v := by
  constructor
  · intro h
    obtain ⟨⟨k, w⟩, hmem, rfl⟩ := List.mem_map.mp h
    exact ⟨k, get?_eq_some_iff.mpr hmem⟩
  · rintro ⟨k, hk⟩
    exact List.mem_map.mpr ⟨(k, v), get?_eq_some_iff.mp hk, rfl⟩

theorem mem_values_of_get? {d : Dict κ α} {k : κ} {v : α} (h : d.get? k = some v) :
    v ∈ d.values :=
  mem_values_iff.mpr ⟨k, h⟩

theorem mem_keys_of_get? {d : Dict κ α} {k : κ} {v : α} (h : d.get? k = some v) :
    k ∈ d.keys :=
  exists_get?_iff.mp ⟨v, h⟩

@[simp] theorem get?_empty (k : κ) : (∅ : Dict κ α).get? k = none := rfl

/-! ### Reads after writes -/

@[simp] theorem get?_mapVals (d : Dict κ α) (f : κ → α → β) (k : κ) :
    (d.mapVals f).get? k = (d.get? k).map (f k) := by
  cases hget : d.get? k with
  | none =>
    rw [Option.map_none, get?_eq_none_iff, keys_mapVals, ← get?_eq_none_iff]
    exact hget
  | some v =>
    rw [Option.map_some, get?_eq_some_iff, entries_mapVals]
    exact List.mem_map.mpr ⟨(k, v), get?_eq_some_iff.mp hget, rfl⟩

@[simp] theorem keys_modify (d : Dict κ α) (k : κ) (f : α → α) : (d.modify k f).keys = d.keys :=
  keys_mapVals d _

theorem get?_modify (d : Dict κ α) (k j : κ) (f : α → α) :
    (d.modify k f).get? j = if j = k then (d.get? j).map f else d.get? j := by
  rw [modify, get?_mapVals]
  split
  · next h => simp [h]
  · next h => simp

@[simp] theorem get?_modify_self (d : Dict κ α) (k : κ) (f : α → α) :
    (d.modify k f).get? k = (d.get? k).map f := by
  rw [get?_modify, if_pos rfl]

theorem get?_modify_of_ne {k j : κ} (h : j ≠ k) (d : Dict κ α) (f : α → α) :
    (d.modify k f).get? j = d.get? j := by
  rw [get?_modify, if_neg h]

theorem get?_set (d : Dict κ α) (k j : κ) (v : α) :
    (d.set k v).get? j = if j = k then some v else d.get? j := by
  unfold set
  split
  · next hmem =>
    rw [get?_modify]
    split
    · next hjk =>
      subst hjk
      obtain ⟨w, hw⟩ := exists_get?_iff.mpr hmem
      rw [hw, Option.map_some]
    · rfl
  · next hmem =>
    rw [get?, List.find?_append]
    split
    · next hjk =>
      subst hjk
      have hnone : d.entries.find? (fun e => e.1 = j) = none := by
        have := get?_eq_none_iff.mpr hmem
        rwa [get?, Option.map_eq_none_iff] at this
      simp [hnone]
    · next hjk =>
      have hkj : ¬ k = j := fun h => hjk h.symm
      simp [get?, hkj]

@[simp] theorem get?_set_self (d : Dict κ α) (k : κ) (v : α) : (d.set k v).get? k = some v := by
  rw [get?_set, if_pos rfl]

theorem get?_set_of_ne {k j : κ} (h : j ≠ k) (d : Dict κ α) (v : α) :
    (d.set k v).get? j = d.get? j := by
  rw [get?_set, if_neg h]

theorem get?_erase (d : Dict κ α) (k j : κ) :
    (d.erase k).get? j = if j = k then none else d.get? j := by
  have hentry : ∀ v, (j, v) ∈ (d.erase k).entries ↔ (j, v) ∈ d.entries ∧ j ≠ k := by
    intro v
    rw [erase, List.mem_filter, decide_eq_true_iff]
  split
  · next h =>
    rw [get?_eq_none_iff, mem_keys_iff]
    rintro ⟨v, hv⟩
    exact ((hentry v).mp hv).2 h
  · next h =>
    cases hget : d.get? j with
    | none =>
      rw [get?_eq_none_iff, mem_keys_iff]
      rintro ⟨v, hv⟩
      have hmem := get?_eq_some_iff.mpr ((hentry v).mp hv).1
      rw [hget] at hmem
      cases hmem
    | some v => exact get?_eq_some_iff.mpr ((hentry v).mpr ⟨get?_eq_some_iff.mp hget, h⟩)

theorem get?_foldl_erase (keys : List κ) (d : Dict κ α) (j : κ) :
    (keys.foldl erase d).get? j = if j ∈ keys then none else d.get? j := by
  induction keys generalizing d with
  | nil => rfl
  | cons k keys ih =>
    rw [List.foldl_cons, ih, get?_erase]
    by_cases hj : j = k
    · simp [hj]
    · simp [hj]

theorem mem_keys_set {d : Dict κ α} {k j : κ} {v : α} :
    j ∈ (d.set k v).keys ↔ j = k ∨ j ∈ d.keys := by
  rw [← isSome_get?_iff, get?_set]
  split
  · next h => simp [h]
  · next h => simp [h, isSome_get?_iff]

/-- Writing a new key appends its entry. -/
theorem entries_set_of_notMem {d : Dict κ α} {k : κ} (h : k ∉ d.keys) (v : α) :
    (d.set k v).entries = d.entries ++ [(k, v)] := by
  rw [set, dif_neg h]

theorem values_set_of_notMem {d : Dict κ α} {k : κ} (h : k ∉ d.keys) (v : α) :
    (d.set k v).values = d.values ++ [v] := by
  rw [values, entries_set_of_notMem h, List.map_append]
  rfl

/-- A property of all values survives a write of a value that has it. -/
theorem forall_values_set {d : Dict κ α} {k : κ} {v : α} {p : α → Prop}
    (hd : ∀ w ∈ d.values, p w) (hv : p v) : ∀ w ∈ (d.set k v).values, p w := by
  intro w hw
  obtain ⟨j, hj⟩ := mem_values_iff.mp hw
  rw [get?_set] at hj
  split at hj
  · cases hj
    exact hv
  · exact hd w (mem_values_of_get? hj)

theorem forall_values_modify {d : Dict κ α} {k : κ} {f : α → α} {p : α → Prop}
    (hd : ∀ w ∈ d.values, p w) (hf : ∀ w, d.get? k = some w → p (f w)) :
    ∀ w ∈ (d.modify k f).values, p w := by
  intro w hw
  obtain ⟨j, hj⟩ := mem_values_iff.mp hw
  rw [get?_modify] at hj
  split at hj
  · next hjk =>
    subst hjk
    obtain ⟨u, hu, rfl⟩ := Option.map_eq_some_iff.mp hj
    exact hf u hu
  · exact hd w (mem_values_of_get? hj)

omit [DecidableEq κ] in
/-- Counting values after a rewrite that keeps the counted property. -/
theorem countP_values_mapVals {d : Dict κ α} {f : κ → α → β} {p : β → Bool} {q : α → Bool}
    (h : ∀ k v, p (f k v) = q v) : (d.mapVals f).values.countP p = d.values.countP q := by
  simp only [values, entries_mapVals, List.map_map, List.countP_map]
  refine List.countP_congr ?_
  rintro ⟨k, v⟩ -
  simp [h]

theorem countP_values_modify {d : Dict κ α} {k : κ} {f : α → α} {p : α → Bool}
    (h : ∀ v, p (f v) = p v) : (d.modify k f).values.countP p = d.values.countP p := by
  refine countP_values_mapVals ?_
  intro j v
  split
  · exact h v
  · rfl

theorem countP_values_set_of_notMem {d : Dict κ α} {k : κ} (hk : k ∉ d.keys) (v : α)
    (p : α → Bool) :
    (d.set k v).values.countP p = d.values.countP p + if p v then 1 else 0 := by
  rw [values_set_of_notMem hk, List.countP_append, List.countP_singleton]

/-- **At most one value has a property** exactly if all keys of such values are the same. -/
theorem length_filter_values_le_one_iff {d : Dict κ α} {p : α → Bool} :
    (d.values.filter p).length ≤ 1 ↔ ∀ j k v w, d.get? j = some v → d.get? k = some w →
      p v = true → p w = true → j = k := by
  have hvalues : (d.values.filter p).length = (d.entries.filter fun e => p e.2).length := by
    rw [values, List.filter_map, List.length_map]
    rfl
  have hmem : ∀ {k v}, (k, v) ∈ d.entries.filter (fun e => p e.2) ↔
      d.get? k = some v ∧ p v = true := by
    intro k v
    rw [List.mem_filter, get?_eq_some_iff]
  have hkeys : ((d.entries.filter fun e => p e.2).map Prod.fst).Nodup :=
    d.nodup.sublist (List.filter_sublist.map Prod.fst)
  rw [hvalues]
  constructor
  · intro hlength j k v w hv hw hpv hpw
    have hj := hmem.mpr ⟨hv, hpv⟩
    have hk := hmem.mpr ⟨hw, hpw⟩
    obtain ⟨e, he⟩ := List.length_eq_one_iff.mp
      (Nat.le_antisymm hlength (List.length_pos_of_mem hj))
    rw [he, List.mem_singleton] at hj hk
    exact congrArg Prod.fst (hj.trans hk.symm)
  · intro hsame
    rcases hfilter : d.entries.filter (fun e => p e.2) with _ | ⟨⟨j, v⟩, _ | ⟨⟨k, w⟩, rest⟩⟩
    · rw [hfilter]
      exact Nat.zero_le 1
    · rw [hfilter]
      exact Nat.le_refl 1
    · rw [hfilter] at hkeys hmem
      have hj := hmem.mp (List.mem_cons_self (a := (j, v)))
      have hk := hmem.mp (List.mem_cons_of_mem (j, v) (List.mem_cons_self (a := (k, w))))
      have heq := hsame j k v w hj.1 hk.1 hj.2 hk.2
      simp [heq] at hkeys
/-! ### Dictionaries from lists of entries -/

/-- Write the entries one after the other, as an object literal does. -/
def ofList (entries : List (κ × α)) : Dict κ α :=
  entries.foldl (fun d e => d.set e.1 e.2) ∅

/-- Writing entries with new and distinct keys appends them. -/
theorem entries_foldl_set {d : Dict κ α} {l : List (κ × α)} (hl : (l.map Prod.fst).Nodup)
    (hd : ∀ e ∈ l, e.1 ∉ d.keys) :
    (l.foldl (fun d e => d.set e.1 e.2) d).entries = d.entries ++ l := by
  induction l generalizing d with
  | nil => simp
  | cons e l ih =>
    rw [List.map_cons, List.nodup_cons] at hl
    rw [List.foldl_cons, ih hl.2, entries_set_of_notMem (hd e List.mem_cons_self)]
    · simp
    · intro e' he' hmem
      rcases mem_keys_set.mp hmem with heq | hmem
      · exact hl.1 (List.mem_map.mpr ⟨e', he', heq⟩)
      · exact hd e' (List.mem_cons_of_mem e he') hmem

theorem entries_ofList {l : List (κ × α)} (hl : (l.map Prod.fst).Nodup) :
    (ofList l).entries = l := by
  rw [ofList, entries_foldl_set hl (by simp)]
  simp

theorem values_ofList {l : List (κ × α)} (hl : (l.map Prod.fst).Nodup) :
    (ofList l).values = l.map Prod.snd := by
  rw [values, entries_ofList hl]

end Dict
