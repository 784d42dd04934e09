import AiOrchestrator.Lib.Prog
import Mathlib.Data.List.Induction
import Mathlib.Logic.Function.Basic

/-!
# Interleaved effect trees

Several programs over one state, each performing one operation at a time: a `Pool`. A
`Server` answers the operations. It is told which program asks, and it may have a choice
(`C`, for instance whether a request fails) or no answer at all, in which case the program
waits; besides, the state may change by itself (`E`: a clock, an expiry). A run is a list of
moves, so a concrete interleaving is executed by `Pool.run`.

## Rely and guarantee

`Prog.Safe` is the judgement by which programs are verified one at a time. A program is safe
under `rely` and `guar` if each of its operations changes the state as `guar` says, provided
the others change it between two operations only as `rely` says. `Pool.safe_run` is the
composition theorem: if what each program guarantees, and what the state does by itself, is
what every other program relies on, then along every run each program stays safe, and
`Pool.guar_of_move` reads off what an operation performed anywhere in a run did.

A proof of safety follows the program: `Prog.safe_ask` asks for an assertion that holds before
the operation and that the rely keeps, and `Prog.safe_bind` composes.
-/

/-- What answers the operations `Op` of the programs `ι` over states `S`. -/
structure Server (ι Op : Type) (Ans : Op → Type) (S C E : Type) where
  /-- The answer and the next state, `none` while the operation has to wait. -/
  serve : ι → C → (o : Op) → S → Option (Ans o × S)
  /-- What the state does by itself. -/
  drift : E → S → Option S

namespace Prog

variable {Op : Type} {Ans : Op → Type} {α β S : Type}

/-- **Safety** of a program under a rely and a guarantee, with a postcondition on the state
in which it returns. -/
def Safe (eff : Eff Op Ans S) (rely guar : S → S → Prop) :
    Prog Op Ans α → (α → S → Prop) → S → Prop
  | ret a, Q, s => Q a s
  | ask o k, Q, s => ∀ t, Relation.ReflTransGen rely s t → ∀ x u, eff o t x u →
      guar t u ∧ (k x).Safe eff rely guar Q u

variable {eff : Eff Op Ans S} {rely guar : S → S → Prop}

@[simp] theorem safe_ret (a : α) (Q : α → S → Prop) (s : S) :
    (ret a : Prog Op Ans α).Safe eff rely guar Q s ↔ Q a s := Iff.rfl

theorem safe_bind (p : Prog Op Ans α) (f : α → Prog Op Ans β) (Q : β → S → Prop) (s : S) :
    (p >>= f).Safe eff rely guar Q s ↔
      p.Safe eff rely guar (fun a => (f a).Safe eff rely guar Q) s := by
  induction p generalizing s with
  | ret a => rfl
  | ask o k ih =>
    refine forall₂_congr fun t _ => forall₃_congr fun x u _ => and_congr_right fun _ => ?_
    exact ih x u

/-- An assertion that the rely keeps holds after any number of its steps. -/
theorem stable_star {P : S → Prop} (hstable : ∀ s t, P s → rely s t → P t) {s t : S} (hs : P s)
    (h : Relation.ReflTransGen rely s t) : P t := by
  induction h with
  | refl => exact hs
  | tail _ hstep ih => exact hstable _ _ ih hstep

/-- **The rule for one operation**: from an assertion that the others keep. -/
theorem safe_ask {P : S → Prop} {o : Op} {k : Ans o → Prog Op Ans α} {Q : α → S → Prop} {s : S}
    (hs : P s) (hstable : ∀ s t, P s → rely s t → P t)
    (heff : ∀ t x u, P t → eff o t x u → guar t u ∧ (k x).Safe eff rely guar Q u) :
    (ask o k).Safe eff rely guar Q s := by
  intro t hst x u he
  exact heff t x u (stable_star hstable hs hst) he

theorem safe_perform_bind {P : S → Prop} {o : Op} {f : Ans o → Prog Op Ans β} {Q : β → S → Prop}
    {s : S} (hs : P s) (hstable : ∀ s t, P s → rely s t → P t)
    (heff : ∀ t x u, P t → eff o t x u → guar t u ∧ (f x).Safe eff rely guar Q u) :
    (perform o >>= f).Safe eff rely guar Q s :=
  safe_ask hs hstable heff

/-- A program that is about to ask stays safe while the others work; so does one that has returned,
if the others keep its postcondition. -/
theorem Safe.of_rely {p : Prog Op Ans α} {Q : α → S → Prop} {s t : S}
    (h : p.Safe eff rely guar Q s) (hQ : ∀ a, Q a s → Q a t) (hst : rely s t) :
    p.Safe eff rely guar Q t := by
  cases p with
  | ret a => exact hQ a h
  | ask o k => exact fun u htu x v he => h u (Relation.ReflTransGen.head hst htu) x v he

theorem Safe.mono {p : Prog Op Ans α} {Q Q' : α → S → Prop} {s : S}
    (h : p.Safe eff rely guar Q s) (hQ : ∀ a t, Q a t → Q' a t) :
    p.Safe eff rely guar Q' s := by
  induction p generalizing s with
  | ret a => exact hQ a s h
  | ask o k ih =>
    intro t hst x u he
    obtain ⟨hguar, hrest⟩ := h t hst x u he
    exact ⟨hguar, ih x hrest⟩

/-- From an invariant that the rely and every operation keep, every program is safe. -/
theorem safe_of_invariant {I : S → Prop} {p : Prog Op Ans α} {s : S} (hs : I s)
    (hrely : ∀ s t, I s → rely s t → I t)
    (heff : ∀ o s x t, I s → eff o s x t → guar s t ∧ I t) :
    p.Safe eff rely guar (fun _ => I) s := by
  induction p generalizing s with
  | ret a => exact hs
  | ask o k ih =>
    intro t hst x u he
    obtain ⟨hguar, hu⟩ := heff o t x u (stable_star hrely hs hst) he
    exact ⟨hguar, ih x hu⟩

/-- A program whose operations keep an invariant that the rely keeps. -/
theorem safe_of_uses_keeps {P : Op → Prop} {I : S → Prop} {p : Prog Op Ans α} {s : S} (hp : p.Uses P)
    (hs : I s) (hrely : ∀ s t, I s → rely s t → I t)
    (heff : ∀ o s x t, P o → I s → eff o s x t → guar s t ∧ I t) :
    p.Safe eff rely guar (fun _ => I) s := by
  induction p generalizing s with
  | ret a => exact hs
  | ask o k ih =>
    intro t hst x u he
    obtain ⟨hguar, hu⟩ := heff o t x u hp.1 (stable_star hrely hs hst) he
    exact ⟨hguar, ih x (hp.2 x) hu⟩

/-- A program is safe if each operation it may perform keeps the guarantee, whatever the
state. -/
theorem safe_of_uses {P : Op → Prop} {p : Prog Op Ans α} (hp : p.Uses P)
    (hguar : ∀ o s x t, P o → eff o s x t → guar s t) (s : S) :
    p.Safe eff rely guar (fun _ _ => True) s :=
  safe_of_uses_keeps (I := fun _ => True) hp trivial (fun _ _ _ _ => trivial)
    fun o s x t ho _ he => ⟨hguar o s x t ho he, trivial⟩

end Prog

namespace Act

variable {ε Op : Type} {Ans : Op → Type} {α β S : Type}

/-- Safety of a fallible program, with a postcondition on the outcome. -/
def Safe (eff : Prog.Eff Op Ans S) (rely guar : S → S → Prop) (m : Act ε Op Ans α)
    (Q : Except ε α → S → Prop) (s : S) : Prop :=
  Prog.Safe eff rely guar m.run Q s

variable {eff : Prog.Eff Op Ans S} {rely guar : S → S → Prop}

@[simp] theorem safe_pure (a : α) (Q : Except ε α → S → Prop) (s : S) :
    Safe eff rely guar (pure a : Act ε Op Ans α) Q s ↔ Q (.ok a) s := Iff.rfl

@[simp] theorem safe_throw (e : ε) (Q : Except ε α → S → Prop) (s : S) :
    Safe eff rely guar (throw e : Act ε Op Ans α) Q s ↔ Q (.error e) s := Iff.rfl

theorem safe_bind (m : Act ε Op Ans α) (f : α → Act ε Op Ans β) (Q : Except ε β → S → Prop)
    (s : S) :
    Safe eff rely guar (m >>= f) Q s ↔
      Safe eff rely guar m
        (outcome (fun a => Safe eff rely guar (f a) Q) (fun e => Q (.error e))) s := by
  unfold Safe
  rw [ExceptT.run_bind, Prog.safe_bind]
  refine iff_of_eq (congrArg (fun P => Prog.Safe eff rely guar m.run P s) ?_)
  funext r s'
  cases r <;> rfl

theorem safe_attempt (m : Act ε Op Ans α) (Q : Except ε (Except ε α) → S → Prop) (s : S) :
    Safe eff rely guar (attempt m) Q s ↔ Safe eff rely guar m (fun r => Q (.ok r)) s := by
  unfold Safe attempt
  rw [ExceptT.run_lift, map_eq_pure_bind, Prog.safe_bind]
  exact Iff.rfl

theorem safe_catching (m : Act ε Op Ans α) (handler : ε → Act ε Op Ans α)
    (Q : Except ε α → S → Prop) (s : S) :
    Safe eff rely guar (catching m handler) Q s ↔
      Safe eff rely guar m
        (outcome (fun a => Q (.ok a)) (fun e => Safe eff rely guar (handler e) Q)) s := by
  unfold catching
  rw [safe_bind, safe_attempt]
  refine iff_of_eq (congrArg (fun P => Safe eff rely guar m P s) ?_)
  funext r s'
  cases r <;> rfl

theorem safe_ignoring (m : Act ε Op Ans α) (Q : Except ε Unit → S → Prop) (s : S) :
    Safe eff rely guar (ignoring m) Q s ↔ Safe eff rely guar m (fun _ => Q (.ok ())) s := by
  unfold ignoring
  rw [safe_bind, safe_attempt]
  exact Iff.rfl

theorem safe_finallyDo (m : Act ε Op Ans α) (fin : Except ε α → Act ε Op Ans Unit)
    (Q : Except ε α → S → Prop) (s : S) :
    Safe eff rely guar (finallyDo m fin) Q s ↔
      Safe eff rely guar m
        (fun r => Safe eff rely guar (fin r) (outcome (fun _ => Q r) (fun e => Q (.error e)))) s := by
  unfold finallyDo
  rw [safe_bind, safe_attempt]
  refine iff_of_eq (congrArg (fun P => Safe eff rely guar m P s) ?_)
  funext r s'
  exact propext (safe_bind (fin r) (fun _ => ofExcept r) Q s')

theorem safe_of_uses_keeps {P : Op → Prop} {I : S → Prop} {m : Act ε Op Ans α} {s : S}
    (hm : Uses P m) (hs : I s) (hrely : ∀ s t, I s → rely s t → I t)
    (heff : ∀ o s x t, P o → I s → eff o s x t → guar s t ∧ I t) :
    Safe eff rely guar m (fun _ => I) s :=
  Prog.safe_of_uses_keeps hm hs hrely heff

theorem Safe.mono {m : Act ε Op Ans α} {Q Q' : Except ε α → S → Prop} {s : S}
    (h : Safe eff rely guar m Q s) (hQ : ∀ r t, Q r t → Q' r t) : Safe eff rely guar m Q' s :=
  Prog.Safe.mono h hQ

section Fallible

variable {Res : Op → Type} {eff : Prog.Eff Op (fun o => Except ε (Res o)) S}

/-- The rule for one operation, whether it fails or not. -/
theorem safe_ask {P : S → Prop} {o : Op} {Q : Except ε (Res o) → S → Prop} {s : S}
    (hs : P s) (hstable : ∀ s t, P s → rely s t → P t)
    (heff : ∀ t x u, P t → eff o t x u → guar t u ∧ Q x u) :
    Safe eff rely guar (ask o : Act ε Op (fun o => Except ε (Res o)) (Res o)) Q s :=
  Prog.safe_ask hs hstable heff

/-- **The rule for one operation** that may fail, and what follows it. -/
theorem safe_ask_bind {P : S → Prop} {o : Op}
    {f : Res o → Act ε Op (fun o => Except ε (Res o)) β} {Q : Except ε β → S → Prop} {s : S}
    (hs : P s) (hstable : ∀ s t, P s → rely s t → P t)
    (hok : ∀ t x u, P t → eff o t (.ok x) u → guar t u ∧ Safe eff rely guar (f x) Q u)
    (herror : ∀ t e u, P t → eff o t (.error e) u → guar t u ∧ Q (.error e) u) :
    Safe eff rely guar (ask o >>= f) Q s := by
  refine Prog.safe_ask hs hstable ?_
  intro t x u ht he
  cases x with
  | ok x => exact hok t x u ht he
  | error e => exact herror t e u ht he

end Fallible

end Act

/-! ### Pools -/

/-- **Programs over one state.** -/
structure Pool (ι Op : Type) (Ans : Op → Type) (α S : Type) where
  threads : ι → Prog Op Ans α
  state : S

/-- A move of a pool: an operation of a program, or a change by itself. -/
inductive Move (ι C E : Type)
  | client (i : ι) (choice : C)
  | drift (e : E)
deriving DecidableEq

namespace Server

variable {ι Op : Type} {Ans : Op → Type} {S C E : Type} (server : Server ι Op Ans S C E)

/-- What an operation of the program `i` may do. -/
def eff (i : ι) : Prog.Eff Op Ans S :=
  fun o s x t => ∃ c, server.serve i c o s = some (x, t)

/-- What the state may do by itself. -/
def drifts (s t : S) : Prop := ∃ e, server.drift e s = some t

/-- The server that answers only where `allows` holds. -/
def only (allows : C → Op → S → Bool) : Server ι Op Ans S C E where
  serve i c o s := if allows c o s then server.serve i c o s else none
  drift := server.drift

variable {server} {allows : C → Op → S → Bool}

theorem eff_only {i : ι} {o : Op} {s t : S} {x : Ans o} :
    (server.only allows).eff i o s x t ↔
      ∃ c, allows c o s = true ∧ server.serve i c o s = some (x, t) := by
  refine exists_congr fun c => ?_
  unfold only
  dsimp only
  split
  · next h => exact ⟨fun hserve => ⟨h, hserve⟩, fun hserve => hserve.2⟩
  · next h => exact ⟨nofun, fun hserve => absurd hserve.1 h⟩

end Server

namespace Pool

variable {ι Op : Type} {Ans : Op → Type} {α S C E : Type} [DecidableEq ι]
  (server : Server ι Op Ans S C E)

/-- One move, if it is possible. -/
def move (p : Pool ι Op Ans α S) : Move ι C E → Option (Pool ι Op Ans α S)
  | .client i c =>
    match p.threads i with
    | .ret _ => none
    | .ask o k =>
      (server.serve i c o p.state).map fun (x, t) =>
        { threads := Function.update p.threads i (k x), state := t }
  | .drift e => (server.drift e p.state).map fun t => { p with state := t }

/-- **A run**: moves one after the other. -/
def run (p : Pool ι Op Ans α S) : List (Move ι C E) → Option (Pool ι Op Ans α S)
  | [] => some p
  | m :: ms => (p.move server m).bind fun q => q.run ms

variable {server} {p q : Pool ι Op Ans α S}

/-- The operation that a move of a program performs. -/
theorem move_client {i : ι} {c : C} (h : p.move server (.client i c) = some q) :
    ∃ o k x, p.threads i = .ask o k ∧ server.serve i c o p.state = some (x, q.state) ∧
      q.threads = Function.update p.threads i (k x) := by
  cases hthread : p.threads i with
  | ret a =>
    simp only [move, hthread] at h
    cases h
  | ask o k =>
    simp only [move, hthread] at h
    obtain ⟨⟨x, t⟩, hserve, rfl⟩ := Option.map_eq_some_iff.mp h
    exact ⟨o, k, x, rfl, hserve, rfl⟩

theorem move_drift {e : E} (h : p.move server (.drift e) = some q) :
    server.drift e p.state = some q.state ∧ q.threads = p.threads := by
  unfold move at h
  obtain ⟨t, hdrift, hq⟩ := Option.map_eq_some_iff.mp h
  subst hq
  exact ⟨hdrift, rfl⟩

theorem run_cons {m : Move ι C E} {ms : List (Move ι C E)} :
    p.run server (m :: ms) = some q ↔ ∃ r, p.move server m = some r ∧ r.run server ms = some q :=
  Option.bind_eq_some_iff

theorem run_append {ms ms' : List (Move ι C E)} :
    p.run server (ms ++ ms') = some q ↔
      ∃ r, p.run server ms = some r ∧ r.run server ms' = some q := by
  induction ms generalizing p with
  | nil => exact ⟨fun h => ⟨p, rfl, h⟩, fun ⟨r, hr, h⟩ => by cases hr; exact h⟩
  | cons m ms ih =>
    rw [List.cons_append, run_cons]
    constructor
    · rintro ⟨r, hm, h⟩
      obtain ⟨r', hr, h⟩ := ih.mp h
      exact ⟨r', run_cons.mpr ⟨r, hm, hr⟩, h⟩
    · rintro ⟨r', hr, h⟩
      obtain ⟨r, hm, hr⟩ := run_cons.mp hr
      exact ⟨r, hm, ih.mpr ⟨r', hr, h⟩⟩

/-- **Induction over runs**: what every move keeps holds after every run. -/
theorem run_induction {P : Pool ι Op Ans α S → Prop} {ms : List (Move ι C E)} (hp : P p)
    (hmove : ∀ p q m, P p → p.move server m = some q → P q) (h : p.run server ms = some q) :
    P q := by
  induction ms generalizing p with
  | nil =>
    cases h
    exact hp
  | cons m ms ih =>
    obtain ⟨r, hm, hr⟩ := run_cons.mp h
    exact ih (hmove p r m hp hm) hr

/-- A condition on moves holds of each move of a run, in the pool in which it is made. -/
def Along (server : Server ι Op Ans S C E) (P : Pool ι Op Ans α S → Move ι C E → Prop)
    (p : Pool ι Op Ans α S) (ms : List (Move ι C E)) : Prop :=
  ∀ before m after q, ms = before ++ m :: after → p.run server before = some q → P q m

theorem along_nil {P : Pool ι Op Ans α S → Move ι C E → Prop} : Along server P p [] := by
  intro before m after q h
  exact absurd h.symm (List.append_ne_nil_of_right_ne_nil before (List.cons_ne_nil m after))

/-- The first move, and the run that follows it. -/
theorem along_cons {P : Pool ι Op Ans α S → Move ι C E → Prop} {m : Move ι C E}
    {ms : List (Move ι C E)} :
    Along server P p (m :: ms) ↔ P p m ∧ ∀ q, p.move server m = some q → Along server P q ms := by
  constructor
  · intro hall
    refine ⟨hall [] m ms p rfl rfl, fun q hq before m' after r heq hrun => ?_⟩
    exact hall (m :: before) m' after r (by rw [heq]; rfl) (run_cons.mpr ⟨q, hq, hrun⟩)
  · rintro ⟨hfirst, hrest⟩ before m' after r heq hrun
    cases before with
    | nil =>
      obtain ⟨rfl, -⟩ := List.cons.inj heq
      obtain rfl := Option.some.inj hrun
      exact hfirst
    | cons m'' before =>
      obtain ⟨rfl, rfl⟩ := List.cons.inj heq
      obtain ⟨q, hq, hrun⟩ := run_cons.mp hrun
      exact hrest q hq before m' after r rfl hrun

/-- One more move. -/
theorem along_concat {P : Pool ι Op Ans α S → Move ι C E → Prop} {ms : List (Move ι C E)}
    {m : Move ι C E} (h : p.run server ms = some q) :
    Along server P p (ms ++ [m]) ↔ Along server P p ms ∧ P q m := by
  constructor
  · intro hall
    refine ⟨fun before m' after r heq hrun => ?_, hall ms m [] q rfl h⟩
    refine hall before m' (after ++ [m]) r ?_ hrun
    rw [heq, List.append_assoc, List.cons_append]
  · rintro ⟨hall, hlast⟩ before m' after r heq hrun
    rcases List.eq_nil_or_concat after with rfl | ⟨rest, last, rfl⟩
    · obtain ⟨rfl, hm⟩ := List.append_inj' heq rfl
      obtain rfl := List.singleton_inj.mp hm
      obtain rfl := Option.some.inj (h.symm.trans hrun)
      exact hlast
    · have hsplit : ms ++ [m] = (before ++ m' :: rest) ++ [last] := by
        rw [heq, List.append_assoc, List.cons_append, List.concat_eq_append]
      exact hall before m' rest r (List.append_inj' hsplit rfl).1 hrun

/-- **Induction over runs along which a condition holds.** -/
theorem along_induction {P : Pool ι Op Ans α S → Move ι C E → Prop}
    {I : Pool ι Op Ans α S → Prop} {ms : List (Move ι C E)} (hp : I p)
    (hmove : ∀ p q m, I p → P p m → p.move server m = some q → I q)
    (hall : Along server P p ms) (h : p.run server ms = some q) : I q := by
  induction ms using List.reverseRecOn generalizing q with
  | nil =>
    cases h
    exact hp
  | append_singleton ms m ih =>
    obtain ⟨r, hr, hm⟩ := run_append.mp h
    obtain ⟨hbefore, hcond⟩ := (along_concat hr).mp hall
    obtain ⟨r', hm, hnil⟩ := run_cons.mp hm
    cases hnil
    exact hmove r _ m (ih hbefore hr) hcond hm

/-- A condition on the operation that a move performs. -/
def Asks (allows : C → Op → S → Bool) (p : Pool ι Op Ans α S) : Move ι C E → Prop
  | .client i c => ∀ o k, p.threads i = .ask o k → allows c o p.state = true
  | .drift _ => True

/-- A run along which all operations are allowed is a run with the server that answers only these. -/
theorem run_only {allows : C → Op → S → Bool} {ms : List (Move ι C E)}
    (hall : Along server (Asks allows) p ms) (h : p.run server ms = some q) :
    p.run (server.only allows) ms = some q := by
  induction ms generalizing p with
  | nil => exact h
  | cons m ms ih =>
    obtain ⟨r, hm, hr⟩ := run_cons.mp h
    obtain ⟨hfirst, hrest⟩ := along_cons.mp hall
    refine run_cons.mpr ⟨r, ?_, ih (hrest r hm) hr⟩
    rw [← hm]
    cases m with
    | drift e => rfl
    | client i c =>
      cases hthread : p.threads i with
      | ret a => simp only [move, hthread]
      | ask o k =>
        simp only [move, hthread, Server.only]
        rw [if_pos (hfirst o k hthread)]

/-- `Asks`, as a check. -/
def allowsMove (allows : C → Op → S → Bool) (p : Pool ι Op Ans α S) : Move ι C E → Bool
  | .drift _ => true
  | .client i c =>
    match p.threads i with
    | .ret _ => true
    | .ask o _ => allows c o p.state

omit [DecidableEq ι] in
theorem asks_of_allowsMove {allows : C → Op → S → Bool} {m : Move ι C E}
    (h : p.allowsMove allows m = true) : Asks allows p m := by
  cases m with
  | drift e => trivial
  | client i c =>
    intro o k hthread
    rw [allowsMove, hthread] at h
    exact h

/-- A check of all moves of a run. -/
def checkAll (server : Server ι Op Ans S C E) (check : Pool ι Op Ans α S → Move ι C E → Bool)
    (p : Pool ι Op Ans α S) : List (Move ι C E) → Bool
  | [] => true
  | m :: ms => check p m && ((p.move server m).all fun q => q.checkAll server check ms)

/-- A condition that is checked holds along the run. -/
theorem along_of_checkAll {check : Pool ι Op Ans α S → Move ι C E → Bool}
    {P : Pool ι Op Ans α S → Move ι C E → Prop} (hcheck : ∀ p m, check p m = true → P p m)
    {ms : List (Move ι C E)} (h : p.checkAll server check ms = true) : Along server P p ms := by
  induction ms generalizing p with
  | nil => exact along_nil
  | cons m ms ih =>
    rw [checkAll, Bool.and_eq_true] at h
    refine along_cons.mpr ⟨hcheck p m h.1, fun q hq => ih ?_⟩
    have hrest := h.2
    rw [hq] at hrest
    exact hrest

/-- What every operation and every change of the state keeps holds after every run. -/
theorem run_keeps {I : S → Prop} {ms : List (Move ι C E)} (hp : I p.state)
    (hserve : ∀ i o s x t, I s → server.eff i o s x t → I t)
    (hdrift : ∀ s t, I s → server.drifts s t → I t) (h : p.run server ms = some q) :
    I q.state := by
  refine run_induction (P := fun p => I p.state) hp ?_ h
  intro p q m hI hm
  cases m with
  | client i c =>
    obtain ⟨o, k, x, -, hop, -⟩ := move_client hm
    exact hserve i o _ x _ hI ⟨c, hop⟩
  | drift e => exact hdrift _ _ hI ⟨e, (move_drift hm).1⟩

section Views

variable {V : Type} {view : ι → S → V} {R : ι → Prog.Rules Op Ans V} {Q : ι → α → V → Prop}

/-- **Programs by their views**: if each operation does to its program's view of the state what the
rules for the view say, and nothing else touches the view, a program that meets the rules by itself
meets them along every run. -/
theorem wp_of_run (hstart : ∀ i, (p.threads i).wp (R i) (Q i) (view i p.state))
    (hown : ∀ i o s x t, server.eff i o s x t → (R i).effect o (view i s) x (view i t))
    (hothers : ∀ i j o s x t, j ≠ i → server.eff i o s x t → view j t = view j s)
    (hdrift : ∀ j s t, server.drifts s t → view j t = view j s) {ms : List (Move ι C E)}
    (h : p.run server ms = some q) (i : ι) : (q.threads i).wp (R i) (Q i) (view i q.state) := by
  refine run_induction (P := fun p => ∀ i, (p.threads i).wp (R i) (Q i) (view i p.state)) hstart
    ?_ h i
  intro p q m hp hm j
  cases m with
  | client i c =>
    obtain ⟨o, k, x, hthread, hop, hthreads⟩ := move_client hm
    rw [hthreads]
    by_cases hj : j = i
    · subst hj
      have hwp := hp j
      rw [hthread] at hwp
      rw [Function.update_self]
      exact hwp.2 x _ (hown j o _ x _ ⟨c, hop⟩)
    · rw [Function.update_of_ne hj, hothers i j o _ x _ hj ⟨c, hop⟩]
      exact hp j
  | drift e =>
    obtain ⟨hstep, hthreads⟩ := move_drift hm
    rw [hthreads, hdrift j _ _ ⟨e, hstep⟩]
    exact hp j

end Views

section RelyGuarantee

variable {rely guar : ι → S → S → Prop} {Q : ι → α → S → Prop}

/-- Every program of the pool is safe, and what the program `i` returns satisfies `Q i`. -/
def SafeTo (server : Server ι Op Ans S C E) (rely guar : ι → S → S → Prop)
    (Q : ι → α → S → Prop) (p : Pool ι Op Ans α S) : Prop :=
  ∀ i, (p.threads i).Safe (server.eff i) (rely i) (guar i) (Q i) p.state

/-- Every program of the pool is safe. -/
def Safe (server : Server ι Op Ans S C E) (rely guar : ι → S → S → Prop)
    (p : Pool ι Op Ans α S) : Prop :=
  ∀ i, (p.threads i).Safe (server.eff i) (rely i) (guar i) (fun _ _ => True) p.state

/-- **What one operation did**: it is within the guarantee of its program. -/
theorem SafeTo.guar_of_move (hp : p.SafeTo server rely guar Q) {i : ι} {c : C}
    (h : p.move server (.client i c) = some q) : guar i p.state q.state := by
  obtain ⟨o, k, x, hthread, hop, -⟩ := move_client h
  have hsafe := hp i
  rw [hthread] at hsafe
  exact (hsafe p.state Relation.ReflTransGen.refl x q.state ⟨c, hop⟩).1

theorem guar_of_move (hp : p.Safe server rely guar) {i : ι} {c : C}
    (h : p.move server (.client i c) = some q) : guar i p.state q.state :=
  SafeTo.guar_of_move (Q := fun _ _ _ => True) hp h

theorem safeTo_move (hrely : ∀ i j, i ≠ j → ∀ s t, guar i s t → rely j s t)
    (hdrift : ∀ j s t, server.drifts s t → rely j s t)
    (hQ : ∀ j a s t, Q j a s → rely j s t → Q j a t) (hp : p.SafeTo server rely guar Q)
    {m : Move ι C E} (h : p.move server m = some q) : q.SafeTo server rely guar Q := by
  intro j
  cases m with
  | client i c =>
    have hguar := hp.guar_of_move h
    obtain ⟨o, k, x, hthread, hop, hthreads⟩ := move_client h
    rw [hthreads]
    by_cases hj : j = i
    · subst hj
      have hsafe := hp j
      rw [hthread] at hsafe
      rw [Function.update_self]
      exact (hsafe p.state Relation.ReflTransGen.refl x q.state ⟨c, hop⟩).2
    · rw [Function.update_of_ne hj]
      have hj' := hrely i j (fun h => hj h.symm) _ _ hguar
      exact (hp j).of_rely (fun a ha => hQ j a _ _ ha hj') hj'
  | drift e =>
    obtain ⟨hstep, hthreads⟩ := move_drift h
    have hj := hdrift j _ _ ⟨e, hstep⟩
    rw [hthreads]
    exact (hp j).of_rely (fun a ha => hQ j a _ _ ha hj) hj

/-- **Composition**: programs that are safe each under what the others guarantee are safe
together, along every run; what they return satisfies their postconditions if the others keep
these. -/
theorem safeTo_run (hrely : ∀ i j, i ≠ j → ∀ s t, guar i s t → rely j s t)
    (hdrift : ∀ j s t, server.drifts s t → rely j s t)
    (hQ : ∀ j a s t, Q j a s → rely j s t → Q j a t) (hp : p.SafeTo server rely guar Q)
    {ms : List (Move ι C E)} (h : p.run server ms = some q) : q.SafeTo server rely guar Q :=
  run_induction hp (fun _ _ _ hp hm => safeTo_move hrely hdrift hQ hp hm) h

theorem safe_move (hrely : ∀ i j, i ≠ j → ∀ s t, guar i s t → rely j s t)
    (hdrift : ∀ j s t, server.drifts s t → rely j s t) (hp : p.Safe server rely guar)
    {m : Move ι C E} (h : p.move server m = some q) : q.Safe server rely guar :=
  safeTo_move (Q := fun _ _ _ => True) hrely hdrift (fun _ _ _ _ h _ => h) hp h

theorem safe_run (hrely : ∀ i j, i ≠ j → ∀ s t, guar i s t → rely j s t)
    (hdrift : ∀ j s t, server.drifts s t → rely j s t) (hp : p.Safe server rely guar)
    {ms : List (Move ι C E)} (h : p.run server ms = some q) : q.Safe server rely guar :=
  run_induction hp (fun _ _ _ hp hm => safe_move hrely hdrift hp hm) h

/-- **Global invariants**: what every guarantee keeps, and the state by itself, holds after
every run of safe programs. -/
theorem invariant_of_safe {I : S → Prop} (hrely : ∀ i j, i ≠ j → ∀ s t, guar i s t → rely j s t)
    (hdrift : ∀ j s t, server.drifts s t → rely j s t) (hguar : ∀ i s t, I s → guar i s t → I t)
    (hkeeps : ∀ s t, I s → server.drifts s t → I t) (hp : p.Safe server rely guar)
    (hI : I p.state) {ms : List (Move ι C E)} (h : p.run server ms = some q) : I q.state := by
  have hboth : q.Safe server rely guar ∧ I q.state := by
    refine run_induction (P := fun p => p.Safe server rely guar ∧ I p.state) ⟨hp, hI⟩ ?_ h
    rintro p q m ⟨hsafe, hI⟩ hm
    refine ⟨safe_move hrely hdrift hsafe hm, ?_⟩
    cases m with
    | client i c => exact hguar i _ _ hI (guar_of_move hsafe hm)
    | drift e => exact hkeeps _ _ hI ⟨e, (move_drift hm).1⟩
  exact hboth.2

end RelyGuarantee

end Pool
