import Mathlib.Logic.Relation
import Mathlib.Data.Finset.Card
import Mathlib.Data.Finset.Image

/-!
# Dependency graphs

A dependency graph is a relation `r a b` (`a` depends on `b`). Acyclicity is the
absence of a cycle; on finitely many vertices it is the existence of a rank that
falls along every edge (`exists_ranked`, `Ranked.acyclic`), and ranks are what the
results are proved with:

* `SplitOf.ranked`: replacing a vertex by a chain of two keeps the graph ranked;
* `Ranked.exists_last`: from every vertex with a property one reaches a vertex with
  the property none of whose dependencies has it.
-/

namespace DepGraph

variable {α : Type}

/-- No vertex depends on itself, directly or through others. -/
def Acyclic (r : α → α → Prop) : Prop := ∀ a, ¬ Relation.TransGen r a a

/-- The rank falls along every edge. -/
def Ranked (r : α → α → Prop) (rank : α → Nat) : Prop := ∀ a b, r a b → rank b < rank a

theorem Ranked.lt_of_transGen {r : α → α → Prop} {rank : α → Nat} (h : Ranked r rank) {a b : α}
    (hab : Relation.TransGen r a b) : rank b < rank a := by
  induction hab with
  | single hstep => exact h _ _ hstep
  | tail _ hstep ih => exact (h _ _ hstep).trans ih

theorem Ranked.acyclic {r : α → α → Prop} {rank : α → Nat} (h : Ranked r rank) : Acyclic r :=
  fun _ hcycle => Nat.lt_irrefl _ (h.lt_of_transGen hcycle)

/-- **Acyclic finite graphs are ranked**: by the number of vertices reachable from a
vertex. -/
theorem exists_ranked {r : α → α → Prop} (vertices : List α) (hv : ∀ a b, r a b → b ∈ vertices)
    (h : Acyclic r) : ∃ rank, Ranked r rank := by
  classical
  refine ⟨fun a => (vertices.toFinset.filter fun b => Relation.TransGen r a b).card, ?_⟩
  intro a b hab
  refine Finset.card_lt_card ((Finset.ssubset_iff_of_subset ?_).mpr ?_)
  · intro c hc
    rw [Finset.mem_filter] at hc ⊢
    exact ⟨hc.1, Relation.TransGen.head hab hc.2⟩
  · refine ⟨b, ?_, ?_⟩
    · rw [Finset.mem_filter]
      exact ⟨List.mem_toFinset.mpr (hv a b hab), Relation.TransGen.single hab⟩
    · rw [Finset.mem_filter]
      rintro ⟨-, hbb⟩
      exact h b hbb

/-- From a vertex with a property one reaches, along the edges, a vertex with the
property whose dependencies do not have it. -/
theorem Ranked.exists_last {r : α → α → Prop} {rank : α → Nat} (h : Ranked r rank)
    {p : α → Prop} {a : α} (ha : p a) :
    ∃ b, Relation.ReflTransGen r a b ∧ p b ∧ ∀ c, r b c → ¬ p c := by
  induction hn : rank a using Nat.strong_induction_on generalizing a with
  | _ n ih =>
    by_cases hlast : ∀ c, r a c → ¬ p c
    · exact ⟨a, Relation.ReflTransGen.refl, ha, hlast⟩
    · push Not at hlast
      obtain ⟨c, hac, hpc⟩ := hlast
      have hlt : rank c < n := hn ▸ h a c hac
      obtain ⟨b, hcb, hpb, hb⟩ := ih (rank c) hlt hpc rfl
      exact ⟨b, Relation.ReflTransGen.head hac hcb, hpb, hb⟩

/-- **Splitting a vertex**: in `r'` the vertex `v` of `r` is replaced by the new
vertices `v₁` and `v₂`. The first takes over the dependencies of `v`, the second
depends on the first, and who depended on `v` may depend on the second. -/
structure SplitOf (r r' : α → α → Prop) (v v₁ v₂ : α) : Prop where
  /-- Every edge of the new graph is an old one or one of the three new kinds. -/
  edge : ∀ a b, r' a b → r a b ∨ (r a v ∧ b = v₂) ∨ (a = v₁ ∧ r v b) ∨ (a = v₂ ∧ b = v₁)
  /-- The first new vertex has no edge in the old graph. -/
  fresh₁ : ∀ a, ¬ r a v₁ ∧ ¬ r v₁ a
  /-- The second new vertex has no edge in the old graph. -/
  fresh₂ : ∀ a, ¬ r a v₂ ∧ ¬ r v₂ a
  ne : v₁ ≠ v₂

theorem SplitOf.ranked {r r' : α → α → Prop} {v v₁ v₂ : α} (hs : SplitOf r r' v v₁ v₂)
    {rank : α → Nat} (h : Ranked r rank) : ∃ rank', Ranked r' rank' := by
  classical
  -- The chain of the two new vertices is put directly above the rank of the old one.
  let rank' : α → Nat := fun a =>
    if a = v₁ then 3 * rank v else if a = v₂ then 3 * rank v + 1 else 3 * rank a
  have hold : ∀ a, a ≠ v₁ → a ≠ v₂ → rank' a = 3 * rank a := by
    intro a h₁ h₂
    simp only [rank', if_neg h₁, if_neg h₂]
  have hnew₁ : rank' v₁ = 3 * rank v := if_pos rfl
  have hnew₂ : rank' v₂ = 3 * rank v + 1 := by simp [rank', hs.ne.symm]
  have hsource : ∀ a b, r a b → rank' a = 3 * rank a := by
    intro a b hab
    refine hold a ?_ ?_
    · rintro rfl
      exact (hs.fresh₁ b).2 hab
    · rintro rfl
      exact (hs.fresh₂ b).2 hab
  have htarget : ∀ a b, r a b → rank' b = 3 * rank b := by
    intro a b hab
    refine hold b ?_ ?_
    · rintro rfl
      exact (hs.fresh₁ a).1 hab
    · rintro rfl
      exact (hs.fresh₂ a).1 hab
  refine ⟨rank', ?_⟩
  intro a b hab
  rcases hs.edge a b hab with hr | ⟨hr, rfl⟩ | ⟨rfl, hr⟩ | ⟨rfl, rfl⟩
  · have := h a b hr
    rw [hsource a b hr, htarget a b hr]
    omega
  · have := h a v hr
    rw [hsource a v hr, hnew₂]
    omega
  · have := h v b hr
    rw [htarget v b hr, hnew₁]
    omega
  · rw [hnew₁, hnew₂]
    omega

end DepGraph
