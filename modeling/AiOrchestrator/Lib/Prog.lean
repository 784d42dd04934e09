import Mathlib.Logic.Relation

/-!
# Effect trees and their weakest preconditions

A program that talks to its surroundings is read here as the tree of its
requests: `Prog Op Ans α` either has returned (`ret`) or performs one operation
`o : Op` and continues with the answer it gets, of type `Ans o`. The tree says
nothing about what an operation does. That is given from outside, in one of two
forms:

* a **handler** `(o : Op) → S → Ans o × S`, which runs a whole program on a state
  (`Prog.exec`);
* an **effect relation** `Eff`, which says which answers and next states an
  operation may have, and under which single operations are the steps of a
  transition system (`Prog.Step`), so that several programs can be interleaved.

A state can carry the record of what a program did (`Prog.Event`, `Prog.recorded`); what
a weakest precondition obliges an operation to then holds of every event of the record
(`Prog.wp_events`).

## The calculus

`Prog.wp R p Q s` is the weakest precondition under a table of rules `R : Rules`:
every operation performed from `s` meets its obligation `R.allowed`, and every
result that the effects in `R.effect` allow satisfies `Q`. The rules of the
calculus (`wp_ret`, `wp_bind`, `wp_perform`, `wp_mono`) are equations
or monotonicity; `wp_exec` and `wp_path` connect it to the two semantics.

## Programs that may fail

`Act ε Op Ans α` adds exceptions that keep the effects already performed.
`Act.wp` is the same calculus with a postcondition on the outcome
`Except ε α`; `Act.Keeps R I m` says that `m` keeps `I` whether it returns or
throws, and is closed under every way of composing programs, so that a proof
of `Keeps` follows the text of the program.

Where an invariant is kept by every operation of a kind, whatever the program does with
it, `Act.Uses P m` says that `m` performs operations of that kind only, and
`Act.keeps_of_uses` gives the invariant without another walk through `m`.
-/

/-- **Effect trees** over the operations `Op`, with answers `Ans`. -/
inductive Prog (Op : Type) (Ans : Op → Type) (α : Type)
  /-- The program has returned. -/
  | ret (a : α)
  /-- The program performs `o` and continues with the answer. -/
  | ask (o : Op) (k : Ans o → Prog Op Ans α)

namespace Prog

variable {Op : Type} {Ans : Op → Type} {α β γ S : Type}

/-- Sequential composition. -/
def bind : Prog Op Ans α → (α → Prog Op Ans β) → Prog Op Ans β
  | ret a, f => f a
  | ask o k, f => ask o fun x => (k x).bind f

instance : Monad (Prog Op Ans) where
  pure := ret
  bind := bind

/-- Perform one operation and return its answer. -/
def perform (o : Op) : Prog Op Ans (Ans o) := ask o ret

@[simp] theorem pure_eq_ret (a : α) : (pure a : Prog Op Ans α) = ret a := rfl

@[simp] theorem ret_bind (a : α) (f : α → Prog Op Ans β) : (ret a >>= f) = f a := rfl

@[simp] theorem ask_bind (o : Op) (k : Ans o → Prog Op Ans α) (f : α → Prog Op Ans β) :
    (ask o k >>= f) = ask o fun x => k x >>= f := rfl

theorem bind_ret (p : Prog Op Ans α) : (p >>= ret) = p := by
  induction p with
  | ret a => rfl
  | ask o k ih =>
    rw [ask_bind]
    congr 1
    funext x
    exact ih x

theorem bind_assoc (p : Prog Op Ans α) (f : α → Prog Op Ans β) (g : β → Prog Op Ans γ) :
    ((p >>= f) >>= g) = p >>= fun a => f a >>= g := by
  induction p with
  | ret a => rfl
  | ask o k ih =>
    simp only [ask_bind]
    congr 1
    funext x
    exact ih x

instance : LawfulMonad (Prog Op Ans) :=
  LawfulMonad.mk' (Prog Op Ans) (fun p => bind_ret p) (fun _ _ => rfl) bind_assoc

/-! ### Running a program with a handler -/

/-- **Execution** with a handler: every operation is answered, and the state
updated, by `handle`. -/
def exec (handle : (o : Op) → S → Ans o × S) : Prog Op Ans α → S → α × S
  | ret a, s => (a, s)
  | ask o k, s => (k (handle o s).1).exec handle (handle o s).2

@[simp] theorem exec_ret (handle : (o : Op) → S → Ans o × S) (a : α) (s : S) :
    (ret a : Prog Op Ans α).exec handle s = (a, s) := rfl

@[simp] theorem exec_ask (handle : (o : Op) → S → Ans o × S) (o : Op)
    (k : Ans o → Prog Op Ans α) (s : S) :
    (ask o k).exec handle s = (k (handle o s).1).exec handle (handle o s).2 := rfl

theorem exec_bind (handle : (o : Op) → S → Ans o × S) (p : Prog Op Ans α)
    (f : α → Prog Op Ans β) (s : S) :
    (p >>= f).exec handle s = (f (p.exec handle s).1).exec handle (p.exec handle s).2 := by
  induction p generalizing s with
  | ret a => rfl
  | ask o k ih => exact ih _ _

/-! ### Interpretation -/

/-- **Interpretation** of the operations of a program by programs over other operations. -/
def interp {Op' : Type} {Ans' : Op' → Type} (f : (o : Op) → Prog Op' Ans' (Ans o)) :
    Prog Op Ans α → Prog Op' Ans' α
  | ret a => ret a
  | ask o k => f o >>= fun x => (k x).interp f

theorem interp_bind {Op' : Type} {Ans' : Op' → Type} (f : (o : Op) → Prog Op' Ans' (Ans o))
    (p : Prog Op Ans α) (g : α → Prog Op Ans β) :
    (p >>= g).interp f = p.interp f >>= fun a => (g a).interp f := by
  induction p with
  | ret a => rfl
  | ask o k ih =>
    rw [ask_bind, interp, interp, bind_assoc]
    exact congrArg (f o >>= ·) (funext ih)

/-! ### Programs as transition systems -/

/-- An **effect relation**: the answers and next states an operation may have. -/
abbrev Eff (Op : Type) (Ans : Op → Type) (S : Type) := (o : Op) → S → Ans o → S → Prop

/-- The effect relation of a handler. -/
def graph (handle : (o : Op) → S → Ans o × S) : Eff Op Ans S :=
  fun o s x s' => handle o s = (x, s')

/-- One operation of a program. -/
inductive Step (eff : Eff Op Ans S) : Prog Op Ans α × S → Prog Op Ans α × S → Prop
  | ask {o : Op} {k : Ans o → Prog Op Ans α} {s s' : S} {x : Ans o} (h : eff o s x s') :
      Step eff (.ask o k, s) (k x, s')

/-- Any number of operations of a program. -/
abbrev Path (eff : Eff Op Ans S) : Prog Op Ans α × S → Prog Op Ans α × S → Prop :=
  Relation.ReflTransGen (Step eff)

/-! ### Weakest preconditions -/

/-- **Rules** for the operations: when one may be performed, and what it may do. -/
structure Rules (Op : Type) (Ans : Op → Type) (S : Type) where
  /-- The obligation that has to hold where the operation is performed. -/
  allowed : Op → S → Prop
  /-- The answers and next states the operation may have. -/
  effect : Eff Op Ans S

/-- Rules without obligations. -/
def Rules.free (eff : Eff Op Ans S) : Rules Op Ans S where
  allowed _ _ := True
  effect := eff

/-- **Weakest precondition**: all obligations of the program are met from `s` and
every result satisfies `Q`. -/
def wp (R : Rules Op Ans S) : Prog Op Ans α → (α → S → Prop) → S → Prop
  | ret a, Q, s => Q a s
  | ask o k, Q, s => R.allowed o s ∧ ∀ x s', R.effect o s x s' → (k x).wp R Q s'

variable {R : Rules Op Ans S}

@[simp] theorem wp_ret (a : α) (Q : α → S → Prop) (s : S) :
    (ret a : Prog Op Ans α).wp R Q s ↔ Q a s := Iff.rfl

theorem wp_ask (o : Op) (k : Ans o → Prog Op Ans α) (Q : α → S → Prop) (s : S) :
    (ask o k).wp R Q s ↔
      R.allowed o s ∧ ∀ x s', R.effect o s x s' → (k x).wp R Q s' := Iff.rfl

@[simp] theorem wp_perform (o : Op) (Q : Ans o → S → Prop) (s : S) :
    (perform o : Prog Op Ans (Ans o)).wp R Q s ↔
      R.allowed o s ∧ ∀ x s', R.effect o s x s' → Q x s' := Iff.rfl

theorem wp_bind (p : Prog Op Ans α) (f : α → Prog Op Ans β) (Q : β → S → Prop) (s : S) :
    (p >>= f).wp R Q s ↔ p.wp R (fun a => (f a).wp R Q) s := by
  induction p generalizing s with
  | ret a => rfl
  | ask o k ih =>
    rw [ask_bind, wp_ask, wp_ask]
    exact and_congr_right fun _ => forall₃_congr fun x s' _ => ih x s'

/-- The calculus is monotone in the postcondition. -/
theorem wp_mono {p : Prog Op Ans α} {Q Q' : α → S → Prop} {s : S} (h : p.wp R Q s)
    (hQ : ∀ a s', Q a s' → Q' a s') : p.wp R Q' s := by
  induction p generalizing s with
  | ret a => exact hQ a s h
  | ask o k ih => exact ⟨h.1, fun x s' he => ih x (h.2 x s' he)⟩

/-- Stronger rules: fewer effects and weaker obligations keep a weakest
precondition. -/
theorem wp_strengthen {R' : Rules Op Ans S} {p : Prog Op Ans α} {Q : α → S → Prop} {s : S}
    (h : p.wp R Q s) (hallowed : ∀ o s, R.allowed o s → R'.allowed o s)
    (heffect : ∀ o s x s', R'.effect o s x s' → R.effect o s x s') : p.wp R' Q s := by
  induction p generalizing s with
  | ret a => exact h
  | ask o k ih => exact ⟨hallowed o s h.1, fun x s' he => ih x (h.2 x s' (heffect o s x s' he))⟩

/-- A step keeps the weakest precondition of the rest. -/
theorem wp_step {p q : Prog Op Ans α} {s t : S} {Q : α → S → Prop} (h : p.wp R Q s)
    (hstep : Step R.effect (p, s) (q, t)) : q.wp R Q t := by
  cases hstep with
  | ask he => exact h.2 _ _ he

/-- **Adequacy for paths**: wherever a program gets, the rest still has its weakest
precondition; in particular the operation it is about to perform is allowed, and
a returned value satisfies the postcondition. -/
theorem wp_path {p q : Prog Op Ans α} {s t : S} {Q : α → S → Prop} (h : p.wp R Q s)
    (hpath : Path R.effect (p, s) (q, t)) : q.wp R Q t := by
  generalize hc : (q, t) = c at hpath
  induction hpath generalizing q t with
  | refl =>
    cases hc
    exact h
  | @tail b c' _ hstep ih =>
    subst hc
    exact wp_step (ih (q := b.1) (t := b.2) rfl) hstep

/-- **Adequacy for executions**: the result of running a program with a handler
that follows the rules satisfies the postcondition. -/
theorem wp_exec {handle : (o : Op) → S → Ans o × S} {p : Prog Op Ans α} {s : S}
    {Q : α → S → Prop} (h : p.wp R Q s)
    (hhandle : ∀ o s, R.effect o s (handle o s).1 (handle o s).2) :
    Q (p.exec handle s).1 (p.exec handle s).2 := by
  induction p generalizing s with
  | ret a => exact h
  | ask o k ih => exact ih _ (h.2 _ _ (hhandle o s))

/-! ### Records of what a program did -/

/-- **An event**: an operation that was performed, its answer, and the state before it. -/
structure Event (Op : Type) (Ans : Op → Type) (S : Type) where
  op : Op
  answer : Ans op
  before : S

/-- The effects of `eff`, on states that carry the record of all events, newest first. -/
def recorded (eff : Eff Op Ans S) : Eff Op Ans (S × List (Event Op Ans S)) :=
  fun o c x c' => eff o c.1 x c'.1 ∧ c'.2 = ⟨o, x, c.1⟩ :: c.2

/-- The handler that keeps the record. -/
def recording (handle : (o : Op) → S → Ans o × S) (o : Op) (c : S × List (Event Op Ans S)) :
    Ans o × (S × List (Event Op Ans S)) :=
  ((handle o c.1).1, (handle o c.1).2, ⟨o, (handle o c.1).1, c.1⟩ :: c.2)

/-- An execution that keeps the record is a path of the recorded effects. -/
theorem path_recording {eff : Eff Op Ans S} {handle : (o : Op) → S → Ans o × S}
    (hhandle : ∀ o s, eff o s (handle o s).1 (handle o s).2) (p : Prog Op Ans α)
    (c : S × List (Event Op Ans S)) :
    Path (recorded eff) (p, c) (ret (p.exec (recording handle) c).1,
      (p.exec (recording handle) c).2) := by
  induction p generalizing c with
  | ret a => exact Relation.ReflTransGen.refl
  | ask o k ih =>
    have hstep : recorded eff o c (handle o c.1).1
        ((handle o c.1).2, ⟨o, (handle o c.1).1, c.1⟩ :: c.2) := ⟨hhandle o c.1, rfl⟩
    exact Relation.ReflTransGen.head (Step.ask hstep) (ih _ _)

/-- **Obligations in the record**: where a program with a weakest precondition gets, every
event of its record met its obligation, given the state and the record at its time. -/
theorem wp_events {R : Rules Op Ans (S × List (Event Op Ans S))} {eff : Eff Op Ans S}
    (heff : R.effect = recorded eff) {p q : Prog Op Ans α} {c c' : S × List (Event Op Ans S)}
    {Q : α → S × List (Event Op Ans S) → Prop} (h : p.wp R Q c)
    (hpath : Path (recorded eff) (p, c) (q, c')) :
    ∃ done, c'.2 = done ++ c.2 ∧ ∀ later e earlier, done = later ++ e :: earlier →
      R.allowed e.op (e.before, earlier ++ c.2) := by
  generalize hend : (q, c') = d at hpath
  induction hpath generalizing q c' with
  | refl =>
    cases hend
    exact ⟨[], rfl, fun later e earlier hsplit => by simp at hsplit⟩
  | @tail b d hpath hstep ih =>
    subst hend
    obtain ⟨done, hdone, hall⟩ := @ih b.1 b.2 rfl
    have hrest : b.1.wp R Q b.2 := wp_path h (heff ▸ hpath)
    cases hstep with
    | @ask o k s s' x he =>
      refine ⟨⟨o, x, s.1⟩ :: done, ?_, ?_⟩
      · rw [he.2, hdone]
        rfl
      · intro later e earlier hsplit
        cases later with
        | nil =>
          obtain ⟨rfl, rfl⟩ := List.cons.inj hsplit
          rw [← hdone]
          exact hrest.1
        | cons e' later =>
          exact hall later e earlier (List.cons.inj hsplit).2

/-! ### The operations of a program -/

/-- Every operation that the program may ever perform satisfies `P`. -/
def Uses (P : Op → Prop) : Prog Op Ans α → Prop
  | ret _ => True
  | ask o k => P o ∧ ∀ x, (k x).Uses P

theorem uses_bind {P : Op → Prop} {p : Prog Op Ans α} {f : α → Prog Op Ans β} (hp : p.Uses P)
    (hf : ∀ a, (f a).Uses P) : (p >>= f).Uses P := by
  induction p with
  | ret a => exact hf a
  | ask o k ih => exact ⟨hp.1, fun x => ih x (hp.2 x)⟩

theorem uses_perform_bind {P : Op → Prop} {o : Op} {f : Ans o → Prog Op Ans β} (ho : P o)
    (hf : ∀ x, (f x).Uses P) : (perform o >>= f).Uses P :=
  ⟨ho, hf⟩

theorem Uses.mono {P P' : Op → Prop} {p : Prog Op Ans α} (hp : p.Uses P) (h : ∀ o, P o → P' o) :
    p.Uses P' := by
  induction p with
  | ret a => trivial
  | ask o k ih => exact ⟨h o hp.1, fun x => ih x (hp.2 x)⟩

theorem Uses.and {P P' : Op → Prop} {p : Prog Op Ans α} (hp : p.Uses P) (hp' : p.Uses P') :
    p.Uses fun o => P o ∧ P' o := by
  induction p with
  | ret a => trivial
  | ask o k ih => exact ⟨⟨hp.1, hp'.1⟩, fun x => ih x (hp.2 x) (hp'.2 x)⟩

/-- **Executions with a record** take the course of those without it, and record operations that
the program may perform with the answers of the handler. -/
theorem exec_recording (handle : (o : Op) → S → Ans o × S) (p : Prog Op Ans α) (s : S)
    (record : List (Event Op Ans S)) :
    ∃ done, p.exec (recording handle) (s, record) =
        ((p.exec handle s).1, (p.exec handle s).2, done ++ record) ∧
      (∀ e ∈ done, e.answer = (handle e.op e.before).1) ∧
      ∀ P : Op → Prop, p.Uses P → ∀ e ∈ done, P e.op := by
  induction p generalizing s record with
  | ret a => exact ⟨[], rfl, fun e he => absurd he List.not_mem_nil,
      fun P _ e he => absurd he List.not_mem_nil⟩
  | ask o k ih =>
    obtain ⟨done, hdone, hanswers, huses⟩ :=
      ih (handle o s).1 (handle o s).2 (⟨o, (handle o s).1, s⟩ :: record)
    refine ⟨done ++ [⟨o, (handle o s).1, s⟩], ?_, ?_, ?_⟩
    · rw [List.append_assoc]
      exact hdone
    · intro e he
      rcases List.mem_append.mp he with he | he
      · exact hanswers e he
      · rw [List.mem_singleton.mp he]
    · intro P hP e he
      rcases List.mem_append.mp he with he | he
      · exact huses P (hP.2 _) e he
      · rw [List.mem_singleton.mp he]
        exact hP.1

/-- A program keeps what every operation it may perform keeps. -/
theorem wp_of_uses {P : Op → Prop} {I : S → Prop} {p : Prog Op Ans α} (hp : p.Uses P)
    (hallowed : ∀ o s, P o → I s → R.allowed o s)
    (heffect : ∀ o s x s', P o → I s → R.effect o s x s' → I s') {s : S} (hs : I s) :
    p.wp R (fun _ => I) s := by
  induction p generalizing s with
  | ret a => exact hs
  | ask o k ih =>
    exact ⟨hallowed o s hp.1 hs, fun x s' he => ih x (hp.2 x) (heffect o s x s' hp.1 hs he)⟩

end Prog

/-! ### Programs that may fail -/

/-- **Fallible programs**: an exception ends the program and keeps the effects
performed before it. -/
abbrev Act (ε Op : Type) (Ans : Op → Type) (α : Type) := ExceptT ε (Prog Op Ans) α

namespace Act

variable {ε Op : Type} {Ans : Op → Type} {α β S : Type}

/-- Perform an operation whose answer is plain. -/
def perform (o : Op) : Act ε Op Ans (Ans o) := ExceptT.lift (Prog.perform o)

/-- Go on with an outcome: return its value or throw its exception. -/
def ofExcept (r : Except ε α) : Act ε Op Ans α := ExceptT.mk (pure r)

/-- The outcome of a program as a value. -/
def attempt (m : Act ε Op Ans α) : Act ε Op Ans (Except ε α) := ExceptT.lift m.run

/-- Perform an operation that may fail. -/
def ask {Res : Op → Type} (o : Op) : Act ε Op (fun o => Except ε (Res o)) (Res o) :=
  ExceptT.mk (Prog.perform o)

/-- Run `fin` after `m` whatever the outcome of `m`; an exception of `fin` replaces
that outcome. -/
def finallyDo (m : Act ε Op Ans α) (fin : Except ε α → Act ε Op Ans Unit) : Act ε Op Ans α := do
  let r ← attempt m
  fin r
  ofExcept r

/-- Run `handler` when `m` throws. -/
def catching (m : Act ε Op Ans α) (handler : ε → Act ε Op Ans α) : Act ε Op Ans α := do
  match ← attempt m with
  | .ok a => pure a
  | .error e => handler e

/-- Run `m` and forget its outcome. -/
def ignoring (m : Act ε Op Ans α) : Act ε Op Ans Unit := do
  let _ ← attempt m
  pure ()

/-- Run the body for every element, in order. -/
def forEach {ι : Type} (body : ι → Act ε Op Ans Unit) : List ι → Act ε Op Ans Unit
  | [] => pure ()
  | i :: is => do
    body i
    forEach body is

/-- **Interpretation** of operations that may fail by programs that may fail. -/
def interp {Op' : Type} {Ans' : Op' → Type} {Res : Op → Type}
    (f : (o : Op) → Act ε Op' Ans' (Res o)) (m : Act ε Op (fun o => Except ε (Res o)) α) :
    Act ε Op' Ans' α :=
  ExceptT.mk (m.run.interp fun o => (f o).run)

section Interp

variable {Op' : Type} {Ans' : Op' → Type} {Res : Op → Type} (f : (o : Op) → Act ε Op' Ans' (Res o))

theorem interp_ask (o : Op) :
    interp f (ask o : Act ε Op (fun o => Except ε (Res o)) (Res o)) = f o :=
  Prog.bind_ret (f o).run

theorem interp_bind (m : Act ε Op (fun o => Except ε (Res o)) α)
    (g : α → Act ε Op (fun o => Except ε (Res o)) β) :
    interp f (m >>= g) = interp f m >>= fun a => interp f (g a) := by
  refine ExceptT.ext ?_
  unfold interp
  rw [ExceptT.run_mk, ExceptT.run_bind, ExceptT.run_bind, Prog.interp_bind]
  refine congrArg (_ >>= ·) (funext fun r => ?_)
  cases r <;> rfl

theorem interp_attempt (m : Act ε Op (fun o => Except ε (Res o)) α) :
    interp f (attempt m) = attempt (interp f m) := by
  refine ExceptT.ext ?_
  unfold interp attempt
  rw [ExceptT.run_mk, ExceptT.run_lift, ExceptT.run_lift, map_eq_pure_bind, map_eq_pure_bind,
    Prog.interp_bind]
  rfl

theorem interp_catching (m : Act ε Op (fun o => Except ε (Res o)) α)
    (handler : ε → Act ε Op (fun o => Except ε (Res o)) α) :
    interp f (catching m handler) = catching (interp f m) fun e => interp f (handler e) := by
  unfold catching
  rw [interp_bind, interp_attempt]
  refine congrArg (_ >>= ·) (funext fun r => ?_)
  cases r <;> rfl

theorem interp_ignoring (m : Act ε Op (fun o => Except ε (Res o)) α) :
    interp f (ignoring m) = ignoring (interp f m) := by
  unfold ignoring
  rw [interp_bind, interp_attempt]
  rfl

theorem interp_finallyDo (m : Act ε Op (fun o => Except ε (Res o)) α)
    (fin : Except ε α → Act ε Op (fun o => Except ε (Res o)) Unit) :
    interp f (finallyDo m fin) = finallyDo (interp f m) fun r => interp f (fin r) := by
  unfold finallyDo
  rw [interp_bind, interp_attempt]
  refine congrArg (_ >>= ·) (funext fun r => ?_)
  rw [interp_bind]
  rfl

end Interp

/-- **Execution** of a fallible program with a handler. -/
def exec (handle : (o : Op) → S → Ans o × S) (m : Act ε Op Ans α) (s : S) : Except ε α × S :=
  Prog.exec handle m.run s

section Exec

variable (handle : (o : Op) → S → Ans o × S)

@[simp] theorem exec_pure (a : α) (s : S) :
    exec handle (pure a : Act ε Op Ans α) s = (.ok a, s) := rfl

@[simp] theorem exec_throw (e : ε) (s : S) :
    exec handle (throw e : Act ε Op Ans α) s = (.error e, s) := rfl

@[simp] theorem exec_ofExcept (r : Except ε α) (s : S) :
    exec handle (ofExcept r : Act ε Op Ans α) s = (r, s) := rfl

@[simp] theorem exec_perform (o : Op) (s : S) :
    exec handle (perform o : Act ε Op Ans (Ans o)) s = (.ok (handle o s).1, (handle o s).2) := rfl

theorem exec_bind (m : Act ε Op Ans α) (f : α → Act ε Op Ans β) (s : S) :
    exec handle (m >>= f) s =
      match exec handle m s with
      | (.ok a, s') => exec handle (f a) s'
      | (.error e, s') => (.error e, s') := by
  unfold exec
  rw [ExceptT.run_bind, Prog.exec_bind]
  rcases Prog.exec handle m.run s with ⟨r, s'⟩
  cases r <;> rfl

variable {handle} in
/-- A program that returns has returned from its first part. -/
theorem exec_bind_eq_ok {m : Act ε Op Ans α} {f : α → Act ε Op Ans β} {s s' : S} {b : β}
    (h : exec handle (m >>= f) s = (.ok b, s')) :
    ∃ a s₁, exec handle m s = (.ok a, s₁) ∧ exec handle (f a) s₁ = (.ok b, s') := by
  rw [exec_bind] at h
  rcases hexec : exec handle m s with ⟨_ | a, s₁⟩
  · rw [hexec] at h
    cases h
  · rw [hexec] at h
    exact ⟨a, s₁, rfl, h⟩

theorem exec_lift (p : Prog Op Ans α) (s : S) :
    exec handle (ExceptT.lift p : Act ε Op Ans α) s =
      (.ok (Prog.exec handle p s).1, (Prog.exec handle p s).2) := by
  unfold exec
  rw [ExceptT.run_lift, map_eq_pure_bind, Prog.exec_bind]
  rfl

theorem exec_attempt (m : Act ε Op Ans α) (s : S) :
    exec handle (attempt m) s = (.ok (exec handle m s).1, (exec handle m s).2) := by
  unfold exec attempt
  rw [ExceptT.run_lift, map_eq_pure_bind, Prog.exec_bind]
  rfl

theorem exec_catching (m : Act ε Op Ans α) (handler : ε → Act ε Op Ans α) (s : S) :
    exec handle (catching m handler) s =
      match exec handle m s with
      | (.ok a, s') => (.ok a, s')
      | (.error e, s') => exec handle (handler e) s' := by
  unfold catching
  rw [exec_bind, exec_attempt]
  rcases exec handle m s with ⟨r, s'⟩
  cases r <;> rfl

theorem exec_ignoring (m : Act ε Op Ans α) (s : S) :
    exec handle (ignoring m) s = (.ok (), (exec handle m s).2) := by
  unfold ignoring
  rw [exec_bind, exec_attempt]
  rfl

theorem exec_finallyDo (m : Act ε Op Ans α) (fin : Except ε α → Act ε Op Ans Unit) (s : S) :
    exec handle (finallyDo m fin) s =
      match exec handle (fin (exec handle m s).1) (exec handle m s).2 with
      | (.ok _, s') => ((exec handle m s).1, s')
      | (.error e, s') => (.error e, s') := by
  unfold finallyDo
  rw [exec_bind, exec_attempt]
  change exec handle (fin (exec handle m s).1 >>= _) (exec handle m s).2 = _
  rw [exec_bind]
  rcases exec handle (fin (exec handle m s).1) (exec handle m s).2 with ⟨r, s'⟩
  cases r <;> rfl

@[simp] theorem exec_ask {Res : Op → Type} (handle : (o : Op) → S → Except ε (Res o) × S) (o : Op)
    (s : S) : exec handle (ask o : Act ε Op (fun o => Except ε (Res o)) (Res o)) s = handle o s :=
  rfl

end Exec

/-- **Weakest precondition** of a fallible program, for a postcondition on the
outcome. -/
def wp (R : Prog.Rules Op Ans S) (m : Act ε Op Ans α) (Q : Except ε α → S → Prop) (s : S) : Prop :=
  Prog.wp R m.run Q s

/-- The postcondition that asks `Q` of a returned value and `E` of an exception. -/
def outcome (Q : α → S → Prop) (E : ε → S → Prop) : Except ε α → S → Prop
  | .ok a, s => Q a s
  | .error e, s => E e s

@[simp] theorem outcome_ok (Q : α → S → Prop) (E : ε → S → Prop) (a : α) :
    outcome Q E (.ok a) = Q a := rfl

@[simp] theorem outcome_error (Q : α → S → Prop) (E : ε → S → Prop) (e : ε) :
    outcome Q E (.error e) = E e := rfl

theorem outcome_imp {Q Q' : α → S → Prop} {E E' : ε → S → Prop} {r : Except ε α} {s : S}
    (h : outcome Q E r s) (hQ : ∀ a, Q a s → Q' a s) (hE : ∀ e, E e s → E' e s) :
    outcome Q' E' r s := by
  cases r with
  | ok a => exact hQ a h
  | error e => exact hE e h

variable {R : Prog.Rules Op Ans S}

@[simp] theorem wp_pure (a : α) (Q : Except ε α → S → Prop) (s : S) :
    wp R (pure a : Act ε Op Ans α) Q s ↔ Q (.ok a) s := Iff.rfl

@[simp] theorem wp_throw (e : ε) (Q : Except ε α → S → Prop) (s : S) :
    wp R (throw e : Act ε Op Ans α) Q s ↔ Q (.error e) s := Iff.rfl

@[simp] theorem wp_ofExcept (r : Except ε α) (Q : Except ε α → S → Prop) (s : S) :
    wp R (ofExcept r : Act ε Op Ans α) Q s ↔ Q r s := Iff.rfl

theorem wp_bind (m : Act ε Op Ans α) (f : α → Act ε Op Ans β) (Q : Except ε β → S → Prop) (s : S) :
    wp R (m >>= f) Q s ↔
      wp R m (outcome (fun a => wp R (f a) Q) (fun e => Q (.error e))) s := by
  unfold wp
  rw [ExceptT.run_bind, Prog.wp_bind]
  refine iff_of_eq (congrArg (fun P => Prog.wp R m.run P s) ?_)
  funext r s'
  cases r <;> rfl

@[simp] theorem wp_perform (o : Op) (Q : Except ε (Ans o) → S → Prop) (s : S) :
    wp R (perform o : Act ε Op Ans (Ans o)) Q s ↔
      R.allowed o s ∧ ∀ x s', R.effect o s x s' → Q (.ok x) s' := by
  unfold wp perform
  rw [ExceptT.run_lift, map_eq_pure_bind, Prog.wp_bind]
  exact Iff.rfl

@[simp] theorem wp_attempt (m : Act ε Op Ans α) (Q : Except ε (Except ε α) → S → Prop) (s : S) :
    wp R (attempt m) Q s ↔ wp R m (fun r => Q (.ok r)) s := by
  unfold wp attempt
  rw [ExceptT.run_lift, map_eq_pure_bind, Prog.wp_bind]
  exact Iff.rfl

theorem wp_mono {m : Act ε Op Ans α} {Q Q' : Except ε α → S → Prop} {s : S} (h : wp R m Q s)
    (hQ : ∀ r s', Q r s' → Q' r s') : wp R m Q' s :=
  Prog.wp_mono h hQ

theorem wp_finallyDo (m : Act ε Op Ans α) (fin : Except ε α → Act ε Op Ans Unit)
    (Q : Except ε α → S → Prop) (s : S) :
    wp R (finallyDo m fin) Q s ↔
      wp R m (fun r => wp R (fin r) (outcome (fun _ => Q r) (fun e => Q (.error e)))) s := by
  unfold finallyDo
  rw [wp_bind, wp_attempt]
  refine iff_of_eq (congrArg (fun P => wp R m P s) ?_)
  funext r s'
  exact propext (wp_bind (fin r) (fun _ => ofExcept r) Q s')

theorem wp_catching (m : Act ε Op Ans α) (handler : ε → Act ε Op Ans α)
    (Q : Except ε α → S → Prop) (s : S) :
    wp R (catching m handler) Q s ↔
      wp R m (outcome (fun a => Q (.ok a)) (fun e => wp R (handler e) Q)) s := by
  unfold catching
  rw [wp_bind, wp_attempt]
  refine iff_of_eq (congrArg (fun P => wp R m P s) ?_)
  funext r s'
  cases r <;> rfl

theorem wp_ignoring (m : Act ε Op Ans α) (Q : Except ε Unit → S → Prop) (s : S) :
    wp R (ignoring m) Q s ↔ wp R m (fun _ => Q (.ok ())) s := by
  unfold ignoring
  rw [wp_bind, wp_attempt]
  simp only [outcome_ok]
  rfl

theorem wp_exec {handle : (o : Op) → S → Ans o × S} {m : Act ε Op Ans α} {s : S}
    {Q : Except ε α → S → Prop} (h : wp R m Q s)
    (hhandle : ∀ o s, R.effect o s (handle o s).1 (handle o s).2) :
    Q (exec handle m s).1 (exec handle m s).2 :=
  Prog.wp_exec h hhandle

/-! ### Triples -/

/-- **Triple** with one postcondition for a returned value and one for an
exception. -/
def Triple (R : Prog.Rules Op Ans S) (P : S → Prop) (m : Act ε Op Ans α) (Q : α → S → Prop)
    (E : ε → S → Prop) : Prop :=
  ∀ s, P s → wp R m (outcome Q E) s

theorem Triple.bind {P : S → Prop} {m : Act ε Op Ans α} {Q : α → S → Prop} {E : ε → S → Prop}
    {f : α → Act ε Op Ans β} {Q' : β → S → Prop} (hm : Triple R P m Q E)
    (hf : ∀ a, Triple R (Q a) (f a) Q' E) : Triple R P (m >>= f) Q' E := by
  intro s hs
  rw [wp_bind]
  refine wp_mono (hm s hs) ?_
  intro r s' hr
  exact outcome_imp hr (fun a ha => hf a s' ha) (fun e he => he)

theorem Triple.pure {P : S → Prop} {Q : α → S → Prop} {E : ε → S → Prop} {a : α}
    (h : ∀ s, P s → Q a s) : Triple R P (pure a : Act ε Op Ans α) Q E :=
  h

theorem Triple.throw {P : S → Prop} {Q : α → S → Prop} {E : ε → S → Prop} {e : ε}
    (h : ∀ s, P s → E e s) : Triple R P (throw e : Act ε Op Ans α) Q E :=
  h

/-- The result of a computation that may fail is known afterwards. -/
theorem Triple.ofExcept {P : S → Prop} (r : Except ε α) :
    Triple R P (ofExcept r : Act ε Op Ans α) (fun a s => P s ∧ r = .ok a) (fun _ => P) := by
  intro s hs
  rw [wp_ofExcept]
  cases r with
  | error e => exact hs
  | ok a => exact ⟨hs, rfl⟩

/-- A fact that does not depend on the state can be assumed. -/
theorem Triple.pull {p : Prop} {P : S → Prop} {m : Act ε Op Ans α} {Q : α → S → Prop}
    {E : ε → S → Prop} (h : p → Triple R P m Q E) : Triple R (fun s => P s ∧ p) m Q E :=
  fun s hs => h hs.2 s hs.1

/-- An operation that may fail. -/
theorem Triple.ask {Res : Op → Type} {R : Prog.Rules Op (fun o => Except ε (Res o)) S}
    {P : S → Prop} {o : Op} {Q : Res o → S → Prop} {E : ε → S → Prop}
    (hallowed : ∀ s, P s → R.allowed o s) (hok : ∀ s a t, P s → R.effect o s (.ok a) t → Q a t)
    (herror : ∀ s e t, P s → R.effect o s (.error e) t → E e t) :
    Triple R P (ask o : Act ε Op (fun o => Except ε (Res o)) (Res o)) Q E := by
  intro s hs
  refine ⟨hallowed s hs, fun x t he => ?_⟩
  cases x with
  | ok a => exact hok s a t hs he
  | error e => exact herror s e t hs he

/-- Rule of consequence. -/
theorem Triple.imp {P P' : S → Prop} {m : Act ε Op Ans α} {Q Q' : α → S → Prop}
    {E E' : ε → S → Prop} (h : Triple R P m Q E) (hP : ∀ s, P' s → P s)
    (hQ : ∀ a s, Q a s → Q' a s) (hE : ∀ e s, E e s → E' e s) : Triple R P' m Q' E' := by
  intro s hs
  refine wp_mono (h s (hP s hs)) ?_
  intro r s' hr
  exact outcome_imp hr (fun a => hQ a s') (fun e => hE e s')

theorem Triple.catching {P : S → Prop} {m : Act ε Op Ans α} {handler : ε → Act ε Op Ans α}
    {Q : α → S → Prop} {E E' : ε → S → Prop} (hm : Triple R P m Q E)
    (hh : ∀ e, Triple R (E e) (handler e) Q E') : Triple R P (catching m handler) Q E' := by
  intro s hs
  rw [wp_catching]
  refine wp_mono (hm s hs) ?_
  intro r s' hr
  exact outcome_imp hr (fun a ha => ha) (fun e he => hh e s' he)

theorem Triple.ignoring {P : S → Prop} {m : Act ε Op Ans α} {Q : S → Prop} {E : ε → S → Prop}
    (hm : Triple R P m (fun _ => Q) (fun _ => Q)) :
    Triple R P (ignoring m) (fun _ => Q) E := by
  intro s hs
  rw [wp_ignoring]
  refine wp_mono (hm s hs) ?_
  intro r s' hr
  cases r <;> exact hr

theorem Triple.finallyDo {P : S → Prop} {m : Act ε Op Ans α} {fin : Except ε α → Act ε Op Ans Unit}
    {Q Q' : α → S → Prop} {E E' : ε → S → Prop} (hm : Triple R P m Q E)
    (hok : ∀ a, Triple R (Q a) (fin (.ok a)) (fun _ => Q' a) E')
    (herror : ∀ e, Triple R (E e) (fin (.error e)) (fun _ => E' e) E') :
    Triple R P (finallyDo m fin) Q' E' := by
  intro s hs
  rw [wp_finallyDo]
  refine wp_mono (hm s hs) ?_
  intro r s' hr
  cases r with
  | ok a =>
    refine wp_mono (hok a s' hr) ?_
    intro r' s'' hr'
    exact outcome_imp hr' (fun _ h => h) (fun _ h => h)
  | error e =>
    refine wp_mono (herror e s' hr) ?_
    intro r' s'' hr'
    exact outcome_imp hr' (fun _ h => h) (fun _ h => h)

/-- `m` keeps `I`, whether it returns or throws. -/
def Keeps (R : Prog.Rules Op Ans S) (I : S → Prop) (m : Act ε Op Ans α) : Prop :=
  Triple R I m (fun _ => I) (fun _ => I)

section Keeps

variable {I : S → Prop}

theorem keeps_pure (a : α) : Keeps R I (pure a : Act ε Op Ans α) := fun _ h => h

theorem keeps_throw (e : ε) : Keeps R I (throw e : Act ε Op Ans α) := fun _ h => h

theorem keeps_ofExcept (r : Except ε α) : Keeps R I (ofExcept r : Act ε Op Ans α) := by
  intro s hs
  rw [wp_ofExcept]
  cases r <;> exact hs

theorem keeps_bind {m : Act ε Op Ans α} {f : α → Act ε Op Ans β} (hm : Keeps R I m)
    (hf : ∀ a, Keeps R I (f a)) : Keeps R I (m >>= f) :=
  Triple.bind hm hf

theorem keeps_attempt {m : Act ε Op Ans α} (hm : Keeps R I m) : Keeps R I (attempt m) := by
  intro s hs
  rw [wp_attempt]
  refine wp_mono (hm s hs) ?_
  intro r s' hr
  cases r <;> exact hr

theorem keeps_catching {m : Act ε Op Ans α} {handler : ε → Act ε Op Ans α} (hm : Keeps R I m)
    (hh : ∀ e, Keeps R I (handler e)) : Keeps R I (catching m handler) :=
  Triple.catching hm hh

theorem keeps_ignoring {m : Act ε Op Ans α} (hm : Keeps R I m) : Keeps R I (ignoring m) :=
  Triple.ignoring hm

theorem keeps_finallyDo {m : Act ε Op Ans α} {fin : Except ε α → Act ε Op Ans Unit}
    (hm : Keeps R I m) (hfin : ∀ r, Keeps R I (fin r)) : Keeps R I (finallyDo m fin) :=
  keeps_bind (keeps_attempt hm) fun r => keeps_bind (hfin r) fun _ => keeps_ofExcept r

end Keeps

/-! ### The operations of a fallible program -/

/-- Every operation that the program may ever perform satisfies `P`. -/
def Uses (P : Op → Prop) (m : Act ε Op Ans α) : Prop := Prog.Uses P m.run

section Uses

variable {P : Op → Prop}

theorem uses_pure (a : α) : Uses P (pure a : Act ε Op Ans α) := trivial

theorem uses_throw (e : ε) : Uses P (throw e : Act ε Op Ans α) := trivial

theorem uses_ofExcept (r : Except ε α) : Uses P (ofExcept r : Act ε Op Ans α) := trivial

theorem uses_bind {m : Act ε Op Ans α} {f : α → Act ε Op Ans β} (hm : Uses P m)
    (hf : ∀ a, Uses P (f a)) : Uses P (m >>= f) := by
  unfold Uses
  rw [ExceptT.run_bind]
  refine Prog.uses_bind hm fun r => ?_
  cases r with
  | ok a => exact hf a
  | error e => trivial

theorem uses_lift {p : Prog Op Ans α} (hp : p.Uses P) :
    Uses P (ExceptT.lift p : Act ε Op Ans α) := by
  unfold Uses
  rw [ExceptT.run_lift, map_eq_pure_bind]
  exact Prog.uses_bind hp fun _ => trivial

theorem uses_perform {o : Op} (ho : P o) : Uses P (perform o : Act ε Op Ans (Ans o)) :=
  uses_lift ⟨ho, fun _ => trivial⟩

theorem uses_ite {c : Prop} [Decidable c] {m m' : Act ε Op Ans α} (hm : Uses P m)
    (hm' : Uses P m') : Uses P (if c then m else m') := by
  split
  · exact hm
  · exact hm'

theorem uses_attempt {m : Act ε Op Ans α} (hm : Uses P m) : Uses P (attempt m) := by
  unfold Uses attempt
  rw [ExceptT.run_lift, map_eq_pure_bind]
  exact Prog.uses_bind hm fun _ => trivial

theorem uses_catching {m : Act ε Op Ans α} {handler : ε → Act ε Op Ans α} (hm : Uses P m)
    (hh : ∀ e, Uses P (handler e)) : Uses P (catching m handler) := by
  refine uses_bind (uses_attempt hm) fun r => ?_
  cases r with
  | ok a => exact uses_pure a
  | error e => exact hh e

theorem uses_ignoring {m : Act ε Op Ans α} (hm : Uses P m) : Uses P (ignoring m) :=
  uses_bind (uses_attempt hm) fun _ => uses_pure ()

theorem uses_finallyDo {m : Act ε Op Ans α} {fin : Except ε α → Act ε Op Ans Unit}
    (hm : Uses P m) (hfin : ∀ r, Uses P (fin r)) : Uses P (finallyDo m fin) :=
  uses_bind (uses_attempt hm) fun r => uses_bind (hfin r) fun _ => uses_ofExcept r

theorem uses_forEach {ι : Type} {body : ι → Act ε Op Ans Unit} {is : List ι}
    (h : ∀ i, Uses P (body i)) : Uses P (forEach body is) := by
  induction is with
  | nil => exact uses_pure ()
  | cons i is ih => exact uses_bind (h i) fun _ => ih

theorem Uses.mono {P' : Op → Prop} {m : Act ε Op Ans α} (hm : Uses P m) (h : ∀ o, P o → P' o) :
    Uses P' m :=
  Prog.Uses.mono hm h

theorem Uses.and {P' : Op → Prop} {m : Act ε Op Ans α} (hm : Uses P m) (hm' : Uses P' m) :
    Uses (fun o => P o ∧ P' o) m :=
  Prog.Uses.and hm hm'

theorem exec_recording (handle : (o : Op) → S → Ans o × S) (m : Act ε Op Ans α) (s : S)
    (record : List (Prog.Event Op Ans S)) :
    ∃ done, exec (Prog.recording handle) m (s, record) =
        ((exec handle m s).1, (exec handle m s).2, done ++ record) ∧
      (∀ e ∈ done, e.answer = (handle e.op e.before).1) ∧
      ∀ P : Op → Prop, Uses P m → ∀ e ∈ done, P e.op :=
  Prog.exec_recording handle m.run s record

/-- A program keeps what every operation it may perform keeps. -/
theorem keeps_of_uses {I : S → Prop} {m : Act ε Op Ans α} (hm : Uses P m)
    (hallowed : ∀ o s, P o → I s → R.allowed o s)
    (heffect : ∀ o s x s', P o → I s → R.effect o s x s' → I s') : Keeps R I m := by
  intro s hs
  refine Prog.wp_mono (Prog.wp_of_uses hm hallowed heffect hs) ?_
  intro r s' hr
  cases r <;> exact hr

end Uses

end Act
