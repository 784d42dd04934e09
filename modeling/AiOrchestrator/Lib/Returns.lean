import AiOrchestrator.Lib.Prog

/-!
# Returned values

What a program returns, whatever its operations answer (`Act.Returns`). Only the last steps of a
program matter for it: nothing has to be known of the program before the last bind
(`Act.returns_bind`).
-/

namespace Prog

variable {Op : Type} {Ans : Op → Type} {α β S : Type}

/-- Every value that the program may ever return satisfies `P`. -/
def Ends (P : α → Prop) : Prog Op Ans α → Prop
  | ret a => P a
  | ask _ k => ∀ x, (k x).Ends P

theorem Ends.mono {P P' : α → Prop} {p : Prog Op Ans α} (hp : p.Ends P) (h : ∀ a, P a → P' a) :
    p.Ends P' := by
  induction p with
  | ret a => exact h a hp
  | ask o k ih => exact fun x => ih x (hp x)

theorem ends_any (p : Prog Op Ans α) : p.Ends fun _ => True := by
  induction p with
  | ret a => trivial
  | ask o k ih => exact ih

theorem Ends.bind {P : α → Prop} {Q : β → Prop} {p : Prog Op Ans α} {f : α → Prog Op Ans β}
    (hp : p.Ends P) (hf : ∀ a, P a → (f a).Ends Q) : (p >>= f).Ends Q := by
  induction p with
  | ret a => exact hf a hp
  | ask o k ih => exact fun x => ih x (hp x)

theorem Ends.free {eff : Eff Op Ans S} {P : α → Prop} {p : Prog Op Ans α} (hp : p.Ends P) (s : S) :
    p.wp (Rules.free eff) (fun a _ => P a) s := by
  induction p generalizing s with
  | ret a => exact hp
  | ask o k ih => exact ⟨trivial, fun x t _ => ih x (hp x) t⟩

/-- A record holds operations that the program may perform. -/
theorem Uses.path {eff : Eff Op Ans S} {P : Op → Prop} {p q : Prog Op Ans α} (hp : p.Uses P)
    {s : S} {c : S × List (Event Op Ans S)} (hpath : Path (recorded eff) (p, (s, [])) (q, c)) :
    ∀ e ∈ c.2, P e.op := by
  let rules : Rules Op Ans (S × List (Event Op Ans S)) :=
    { allowed := fun _ c => ∀ e ∈ c.2, P e.op, effect := recorded eff }
  have hspec : p.wp rules (fun _ c => ∀ e ∈ c.2, P e.op) (s, []) := by
    refine wp_of_uses hp (fun _ _ _ hc => hc) (fun o c x c' ho hc he e hmem => ?_)
      fun e hmem => absurd hmem List.not_mem_nil
    rw [he.2] at hmem
    rcases List.mem_cons.mp hmem with rfl | hmem
    · exact ho
    · exact hc e hmem
  have hhere := wp_path hspec hpath
  cases q with
  | ret a => exact hhere
  | ask o k => exact hhere.1

end Prog

namespace Act

variable {ε Op : Type} {Ans : Op → Type} {α β S : Type}

/-- **Every returned value** satisfies `P`. -/
def Returns (P : α → Prop) (m : Act ε Op Ans α) : Prop :=
  m.run.Ends fun r => ∀ a, r = .ok a → P a

variable {P : α → Prop} {Q : β → Prop}

theorem returns_any (m : Act ε Op Ans α) : m.Returns fun _ => True :=
  (Prog.ends_any m.run).mono fun _ _ _ _ => trivial

theorem returns_pure {a : α} (h : P a) : (pure a : Act ε Op Ans α).Returns P := by
  rintro _ ⟨⟩
  exact h

theorem returns_throw (e : ε) : (throw e : Act ε Op Ans α).Returns P := by
  rintro _ ⟨⟩

theorem returns_ofExcept {r : Except ε α} (h : ∀ a, r = .ok a → P a) :
    (ofExcept r : Act ε Op Ans α).Returns P := h

theorem Returns.bind {m : Act ε Op Ans α} {f : α → Act ε Op Ans β} (hm : m.Returns P)
    (hf : ∀ a, P a → (f a).Returns Q) : (m >>= f).Returns Q := by
  refine Prog.Ends.bind hm fun r hr => ?_
  cases r with
  | ok a => exact hf a (hr a rfl)
  | error e => exact returns_throw e

/-- Only the last step matters. -/
theorem returns_bind {m : Act ε Op Ans α} {f : α → Act ε Op Ans β} (hf : ∀ a, (f a).Returns Q) :
    (m >>= f).Returns Q :=
  (returns_any m).bind fun a _ => hf a

theorem Returns.attempt {m : Act ε Op Ans α} (hm : m.Returns P) :
    (attempt m).Returns fun r => ∀ a, r = .ok a → P a := by
  unfold Returns Act.attempt
  rw [ExceptT.run_lift, map_eq_pure_bind]
  refine Prog.Ends.bind hm fun r hr => ?_
  rintro _ ⟨⟩
  exact hr

theorem Returns.catching {m : Act ε Op Ans α} {handler : ε → Act ε Op Ans α} (hm : m.Returns P)
    (hh : ∀ e, (handler e).Returns P) : (catching m handler).Returns P := by
  refine hm.attempt.bind fun r hr => ?_
  cases r with
  | ok a => exact returns_pure (hr a rfl)
  | error e => exact hh e

theorem Returns.finallyDo {m : Act ε Op Ans α} {fin : Except ε α → Act ε Op Ans Unit}
    (hm : m.Returns P) : (finallyDo m fin).Returns P := by
  exact hm.attempt.bind fun r hr => returns_bind fun _ => returns_ofExcept hr

/-- A triple without its obligations. -/
theorem Triple.free {R : Prog.Rules Op Ans S} {I : S → Prop} {m : Act ε Op Ans α}
    {K : α → S → Prop} {E : ε → S → Prop} (h : Triple R I m K E) :
    Triple (Prog.Rules.free R.effect) I m K E :=
  fun s hs => Prog.wp_strengthen (h s hs) (fun _ _ _ => trivial) fun _ _ _ _ he => he

/-- Without obligations and invariants, only what is returned is known. -/
theorem Returns.triple {eff : Prog.Eff Op Ans S} {I : S → Prop} {m : Act ε Op Ans α}
    (hm : m.Returns P) :
    Triple (Prog.Rules.free eff) I m (fun a _ => P a) (fun _ _ => True) := by
  intro s _
  refine wp_mono (Prog.Ends.free hm s) fun r t hr => ?_
  cases r with
  | ok a => exact hr a rfl
  | error e => trivial

end Act
