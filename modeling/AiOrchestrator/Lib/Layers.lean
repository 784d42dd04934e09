import AiOrchestrator.Lib.DepGraph
import Mathlib.Data.Nat.Find

/-!
# Layers of a dependency graph

A list of layers puts the vertices of a graph in levels: everything that a vertex depends on is
in earlier layers, and no earlier place would do (`Layered`). Layers are built from the front;
`Layered.concat` is the step, with `Waiting` as what is known of the vertices that have not
been placed.

A finite set of vertices that all wait for one another or for something outside is what is left
in the end: from each of its vertices one reaches a cycle or something outside
(`exists_cycle_or_exit`). No vertex of a layer does (`Layered.not_unresolvable`).
-/

namespace DepGraph

variable {α : Type}

/-- **Left over**: where every vertex of a finite set has a successor in the set or one with a
property, one reaches from each a vertex with the property or on a cycle. -/
theorem exists_cycle_or_exit {r : α → α → Prop} {exit : α → Prop} (vertices : List α)
    (hnext : ∀ a ∈ vertices, ∃ b, r a b ∧ (b ∈ vertices ∨ exit b)) {a : α} (ha : a ∈ vertices) :
    ∃ b, Relation.ReflTransGen r a b ∧ (exit b ∨ Relation.TransGen r b b) := by
  by_contra hnone
  push Not at hnone
  -- the edges between vertices that can be reached
  let r' : α → α → Prop := fun b c => Relation.ReflTransGen r a b ∧ r b c ∧ c ∈ vertices
  have hpath : ∀ b c, Relation.TransGen r' b c →
      Relation.ReflTransGen r a b ∧ Relation.TransGen r b c := by
    intro b c hbc
    induction hbc with
    | single hstep => exact ⟨hstep.1, Relation.TransGen.single hstep.2.1⟩
    | tail _ hstep ih => exact ⟨ih.1, ih.2.tail hstep.2.1⟩
  have hacyclic : Acyclic r' := fun b hcycle =>
    (hnone b (hpath b b hcycle).1).2 (hpath b b hcycle).2
  obtain ⟨rank, hrank⟩ := exists_ranked vertices (fun _ _ h => h.2.2) hacyclic
  obtain ⟨b, -, ⟨hreach, hmem⟩, hlast⟩ :=
    hrank.exists_last (p := fun b => Relation.ReflTransGen r a b ∧ b ∈ vertices)
      ⟨Relation.ReflTransGen.refl, ha⟩
  obtain ⟨c, hbc, hc⟩ := hnext b hmem
  have hreachc := hreach.tail hbc
  rcases hc with hin | hexit
  · exact hlast c ⟨hreach, hbc, hin⟩ ⟨hreachc, hin⟩
  · exact (hnone c hreachc).1 hexit

section Layers

variable (deps : α → List α)

/-- A vertex depends on another. -/
def DependsOn (a b : α) : Prop := b ∈ deps a

/-- A vertex is in the layer with a number. -/
def PlacedAt (layers : List (List α)) (i : Nat) (a : α) : Prop :=
  ∃ layer, layers[i]? = some layer ∧ a ∈ layer

theorem exists_placedAt_iff {layers : List (List α)} {a : α} :
    (∃ i, PlacedAt layers i a) ↔ a ∈ layers.flatten := by
  rw [List.mem_flatten]
  constructor
  · rintro ⟨i, layer, hlayer, hmem⟩
    exact ⟨layer, List.mem_of_getElem? hlayer, hmem⟩
  · rintro ⟨layer, hlayer, hmem⟩
    obtain ⟨i, hi⟩ := List.mem_iff_getElem?.mp hlayer
    exact ⟨i, layer, hi, hmem⟩

/-- What is in the first layers is in one of them. -/
theorem mem_flatten_take_iff {layers : List (List α)} {k : Nat} {a : α} :
    a ∈ (layers.take k).flatten ↔ ∃ i < k, PlacedAt layers i a := by
  rw [← exists_placedAt_iff]
  constructor
  · rintro ⟨i, layer, hlayer, hmem⟩
    rcases Nat.lt_or_ge i k with hlt | hge
    · rw [List.getElem?_take_of_lt hlt] at hlayer
      exact ⟨i, hlt, layer, hlayer, hmem⟩
    · rw [List.getElem?_take_eq_none hge] at hlayer
      cases hlayer
  · rintro ⟨i, hlt, layer, hlayer, hmem⟩
    exact ⟨i, layer, (List.getElem?_take_of_lt hlt).trans hlayer, hmem⟩

/-- A vertex that no place before the end of the layers would do for. -/
def Waiting (layers : List (List α)) (a : α) : Prop :=
  ∀ k < layers.length, ∃ b ∈ deps a, b ∉ (layers.take k).flatten

/-- **Layers**: the dependencies of a vertex of a layer are in the layers before it, and not all
in those before any earlier one. -/
def Layered (layers : List (List α)) : Prop :=
  ∀ i a, PlacedAt layers i a →
    (∀ b ∈ deps a, b ∈ (layers.take i).flatten) ∧
      ∀ k < i, ∃ b ∈ deps a, b ∉ (layers.take k).flatten

variable {deps} {layers : List (List α)}

theorem layered_nil : Layered deps [] := by
  rintro i a ⟨layer, hlayer, -⟩
  simp at hlayer

theorem waiting_nil (a : α) : Waiting deps [] a := fun _ hk => absurd hk (Nat.not_lt_zero _)

/-- One more layer, of waiting vertices whose dependencies are placed. -/
theorem Layered.concat (h : Layered deps layers) {layer : List α}
    (hready : ∀ a ∈ layer, ∀ b ∈ deps a, b ∈ layers.flatten)
    (hwaiting : ∀ a ∈ layer, Waiting deps layers a) : Layered deps (layers ++ [layer]) := by
  rintro i a ⟨layer', hlayer', ha⟩
  rcases Nat.lt_trichotomy i layers.length with hlt | heq | hgt
  · rw [List.getElem?_append_left hlt] at hlayer'
    obtain ⟨hbefore, hearliest⟩ := h i a ⟨layer', hlayer', ha⟩
    have htake : ∀ k ≤ i, (layers ++ [layer]).take k = layers.take k := fun k hk =>
      List.take_append_of_le_length (by omega)
    refine ⟨fun b hb => ?_, fun k hk => ?_⟩
    · rw [htake i le_rfl]
      exact hbefore b hb
    · rw [htake k hk.le]
      exact hearliest k hk
  · subst heq
    rw [List.getElem?_concat_length] at hlayer'
    cases hlayer'
    refine ⟨fun b hb => ?_, fun k hk => ?_⟩
    · rw [List.take_left]
      exact hready a ha b hb
    · rw [List.take_append_of_le_length hk.le]
      exact hwaiting a ha k hk
  · rw [List.getElem?_eq_none (by simp; omega)] at hlayer'
    cases hlayer'

/-- A waiting vertex with a dependency that is not placed waits for one more layer. -/
theorem Waiting.concat {a : α} (h : Waiting deps layers a) (layer : List α)
    (hnot : ∃ b ∈ deps a, b ∉ layers.flatten) : Waiting deps (layers ++ [layer]) a := by
  intro k hk
  rw [List.length_append, List.length_singleton] at hk
  rw [List.take_append_of_le_length (by omega)]
  rcases Nat.lt_or_ge k layers.length with hlt | hge
  · exact h k hlt
  · rw [List.take_of_length_le hge]
    exact hnot

/-- A dependency of a placed vertex is placed. -/
theorem Layered.mem_of_dependsOn (h : Layered deps layers) {a b : α} (ha : a ∈ layers.flatten)
    (hab : DependsOn deps a b) : b ∈ layers.flatten := by
  obtain ⟨i, hplaced⟩ := exists_placedAt_iff.mpr ha
  obtain ⟨j, -, hj⟩ := mem_flatten_take_iff.mp ((h i a hplaced).1 b hab)
  exact exists_placedAt_iff.mp ⟨j, hj⟩

/-- No placed vertex depends, directly or not, on one that is not placed or on a cycle. -/
theorem Layered.not_unresolvable (h : Layered deps layers) {a b : α} (ha : a ∈ layers.flatten)
    (hab : Relation.ReflTransGen (DependsOn deps) a b) :
    b ∈ layers.flatten ∧ ¬ Relation.TransGen (DependsOn deps) b b := by
  classical
  have hclosed : ∀ c, Relation.ReflTransGen (DependsOn deps) a c → c ∈ layers.flatten := by
    intro c hac
    induction hac with
    | refl => exact ha
    | tail _ hstep ih => exact h.mem_of_dependsOn ih hstep
  have hb := hclosed b hab
  refine ⟨hb, fun hcycle => ?_⟩
  -- the first layer of a vertex falls along the edges between placed vertices
  let rank : α → Nat := fun c =>
    if hc : ∃ i, PlacedAt layers i c then Nat.find hc + 1 else 0
  let r' : α → α → Prop := fun c d => c ∈ layers.flatten ∧ DependsOn deps c d
  have hranked : Ranked r' rank := by
    rintro c d ⟨hc, hcd⟩
    have hplaced := exists_placedAt_iff.mpr hc
    obtain ⟨j, hlt, hj⟩ := mem_flatten_take_iff.mp ((h _ c (Nat.find_spec hplaced)).1 d hcd)
    have hplaced' : ∃ i, PlacedAt layers i d := ⟨j, hj⟩
    have hle : Nat.find hplaced' ≤ j := Nat.find_le hj
    show rank d < rank c
    simp only [rank, dif_pos hplaced, dif_pos hplaced']
    omega
  have hlift : ∀ c, Relation.TransGen (DependsOn deps) b c →
      Relation.TransGen r' b c := by
    intro c hbc
    induction hbc with
    | single hstep => exact Relation.TransGen.single ⟨hb, hstep⟩
    | tail hbc hstep ih =>
      exact ih.tail ⟨hclosed _ (hab.trans hbc.to_reflTransGen), hstep⟩
  exact hranked.acyclic b (hlift b hcycle)

end Layers

end DepGraph
