import Mathlib.Data.Option.Basic
import Mathlib.Data.List.Basic

/-!
# Fields in layers

A record that is spread over another one overwrites each field that it *has*, also one whose value is
undefined. `Slot α` tells the three cases apart: no field, a field without a value, a value. Over a stack
of layers, most specific first, `shown` is what spreading leaves, and `defined` is the value of the most
specific layer that defines one. They differ exactly where a value is `Hidden` by a field without one.
-/

namespace Overlay

/-- A field of a record: absent, present and undefined, or a value. -/
abbrev Slot (α : Type) := Option (Option α)

variable {α β : Type}

/-- The field of a record that is spread over another one. -/
def spread (base override : Slot α) : Slot α := override.or base

theorem spread_assoc (a b c : Slot α) : spread (spread a b) c = spread a (spread b c) :=
  Option.or_assoc.symm

@[simp] theorem spread_none (base : Slot α) : spread base none = base := rfl

@[simp] theorem none_spread (override : Slot α) : spread none override = override := Option.or_none

/-- What spreading a stack leaves, where the first layer is the most specific. -/
def shown (layers : List (Slot α)) : Option α := (layers.findSome? id).join

/-- The value of the most specific layer that defines one. -/
def defined (layers : List (Slot α)) : Option α := layers.findSome? Option.join

/-- A value is hidden by a field without one. -/
def Hidden (layers : List (Slot α)) : Prop :=
  layers.findSome? id = some none ∧ defined layers ≠ none

theorem Hidden.shown_eq_none {layers : List (Slot α)} (h : Hidden layers) : shown layers = none := by
  rw [shown, h.1]
  rfl

/-- **Spreading shows what is defined** exactly where nothing is hidden. -/
theorem shown_eq_defined_iff {layers : List (Slot α)} :
    shown layers = defined layers ↔ ¬ Hidden layers := by
  induction layers with
  | nil => exact iff_of_true rfl fun h => h.2 rfl
  | cons field layers ih =>
    match field with
    | none => exact ih
    | some none =>
      have hshown : shown (some none :: layers) = none := rfl
      have hfirst : (some none :: layers : List (Slot α)).findSome? id = some none := rfl
      rw [hshown, Hidden, hfirst, and_iff_right rfl, not_not]
      exact eq_comm
    | some (some v) =>
      refine iff_of_true rfl fun h => ?_
      have hvalue := h.1
      cases hvalue

/-- A merged layer stands for the two layers it was merged from. -/
theorem findSome?_spread (base override : Slot α) (layers : List (Slot α)) :
    (spread base override :: layers).findSome? id = (override :: base :: layers).findSome? id := by
  cases override with
  | none => rfl
  | some value => rfl

end Overlay
