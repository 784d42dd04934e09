import AiOrchestrator.Execution.Worktrees

/-!
# What belongs to a session

Where a session is, is an assertion about the repository: `Clear`, `Drawn`, `Added`, `Held` or `Removed`.
It relies on the others to leave its directory, its registration and its branch, and to make none in its
name (`Kept`); under this the assertions are stable. `kept_of_quiet` is for the operations that concern no
session in particular, and what the others do is said update by update.
-/

namespace AiOrchestrator

namespace Worktrees

variable {ι : Type} {i j : ι} {s t u : Repository ι}

/-! ### What is checked out -/

namespace Repository

/-- The branch is checked out, in the main worktree or in a registered one. -/
def CheckedOut (s : Repository ι) (name : String) : Prop :=
  s.head = some name ∨ ∃ root w, s.worktrees.get? root = some w ∧ w.branch = some name

theorem isCheckedOut_iff {name : String} : s.isCheckedOut name = true ↔ s.CheckedOut name := by
  simp only [isCheckedOut, CheckedOut, Bool.or_eq_true, decide_eq_true_eq, List.any_eq_true,
    Dict.mem_values_iff]
  refine or_congr_right ?_
  constructor
  · rintro ⟨w, ⟨root, hw⟩, h⟩
    exact ⟨root, w, hw, h⟩
  · rintro ⟨root, w, hw, h⟩
    exact ⟨w, ⟨root, hw⟩, h⟩

/-- **A repository**: what is checked out exists. -/
def Sound (s : Repository ι) : Prop :=
  ∀ name, s.CheckedOut name → name ∈ s.branches.keys

/-- A session has no registration. -/
def NoWorktree (i : ι) (s : Repository ι) : Prop :=
  ∀ root w, s.worktrees.get? root = some w → w.owner ≠ some i

/-- A session has no branch. -/
def NoBranch (i : ι) (s : Repository ι) : Prop :=
  ∀ name b, s.branches.get? name = some b → b.owner ≠ some i

end Repository

/-! ### What the others do -/

/-- **What a session relies on**: the others leave what is its own, and make nothing that is its own. -/
structure Kept (i : ι) (s t : Repository ι) : Prop where
  drawn : ∀ root, s.drawn.get? root = some i → t.drawn.get? root = some i
  dir : ∀ root, s.drawn.get? root = some i → root ∈ s.dirs → root ∈ t.dirs
  worktree : ∀ root w, s.drawn.get? root = some i → root ∈ s.dirs →
    s.worktrees.get? root = some w → t.worktrees.get? root = some w
  noWorktree : ∀ root w, t.worktrees.get? root = some w → w.owner = some i →
    s.worktrees.get? root = some w
  branch : ∀ root w name b, s.drawn.get? root = some i → root ∈ s.dirs →
    s.worktrees.get? root = some w → w.branch = some name → s.branches.get? name = some b →
      t.branches.get? name = some b
  noBranch : ∀ name b, t.branches.get? name = some b → b.owner = some i →
    s.branches.get? name = some b
  checkedOut : ∀ root w name b, t.worktrees.get? root = some w → w.branch = some name →
    t.branches.get? name = some b → b.owner = some i → s.worktrees.get? root = some w
  head : t.head = s.head
  phase : t.phase i = s.phase i

namespace Kept

theorem refl (i : ι) (s : Repository ι) : Kept i s s where
  drawn _ h := h
  dir _ _ h := h
  worktree _ _ _ _ h := h
  noWorktree _ _ h _ := h
  branch _ _ _ _ _ _ _ _ h := h
  noBranch _ _ h _ := h
  checkedOut _ _ _ _ h _ _ _ := h
  head := rfl
  phase := rfl

theorem trans (h : Kept i s t) (h' : Kept i t u) : Kept i s u where
  drawn root hdrawn := h'.drawn root (h.drawn root hdrawn)
  dir root hdrawn hdir := h'.dir root (h.drawn root hdrawn) (h.dir root hdrawn hdir)
  worktree root w hdrawn hdir hw :=
    h'.worktree root w (h.drawn root hdrawn) (h.dir root hdrawn hdir) (h.worktree root w hdrawn hdir hw)
  noWorktree root w hw howner := h.noWorktree root w (h'.noWorktree root w hw howner) howner
  branch root w name b hdrawn hdir hw hbranch hb :=
    h'.branch root w name b (h.drawn root hdrawn) (h.dir root hdrawn hdir)
      (h.worktree root w hdrawn hdir hw) hbranch (h.branch root w name b hdrawn hdir hw hbranch hb)
  noBranch name b hb howner := h.noBranch name b (h'.noBranch name b hb howner) howner
  checkedOut root w name b hw hbranch hb howner :=
    h.checkedOut root w name b (h'.checkedOut root w name b hw hbranch hb howner) hbranch
      (h'.noBranch name b hb howner) howner
  head := h'.head.trans h.head
  phase := h'.phase.trans h.phase

/-- Registrations go whose directory is gone, or which belong to another. -/
theorem of_fewerWorktrees {worktrees : Dict String (Worktree ι)}
    (hfewer : ∀ root w, worktrees.get? root = some w → s.worktrees.get? root = some w)
    (hkeep : ∀ root w, s.drawn.get? root = some i → root ∈ s.dirs →
      s.worktrees.get? root = some w → worktrees.get? root = some w) :
    Kept i s { s with worktrees } where
  drawn _ h := h
  dir _ _ h := h
  worktree := hkeep
  noWorktree root w h _ := hfewer root w h
  branch _ _ _ _ _ _ _ _ h := h
  noBranch _ _ h _ := h
  checkedOut root w _ _ h _ _ _ := hfewer root w h
  head := rfl
  phase := rfl

end Kept

theorem kept_prune (expired : List String) : Kept i s (s.prune expired) := by
  refine Kept.of_fewerWorktrees ?_ ?_
  · intro root w h
    rw [Dict.get?_foldl_erase] at h
    split at h
    · cases h
    · exact h
  · intro root w _ hdir h
    rw [Dict.get?_foldl_erase, if_neg ?_]
    · exact h
    · intro hmem
      have hgone := (List.mem_filter.mp hmem).2
      exact of_decide_eq_true hgone hdir

theorem kept_removeWorktree {root : String} (h : s.drawn.get? root ≠ some i) :
    Kept i s (s.removeWorktree root) := by
  refine Kept.of_fewerWorktrees ?_ ?_
  · intro root' w hw
    rw [Dict.get?_erase] at hw
    split at hw
    · cases hw
    · exact hw
  · intro root' w hdrawn _ hw
    have hne : root' ≠ root := fun heq => h (heq ▸ hdrawn)
    rw [Dict.get?_erase, if_neg hne]
    exact hw

theorem kept_removeBranch {name : String} (h : ¬ s.CheckedOut name) :
    Kept i s (s.removeBranch name) :=
  { Kept.refl i s with
    branch := by
      intro root w name' b _ _ hw hbranch hb
      have hne : name' ≠ name := by
        rintro rfl
        exact h (.inr ⟨root, w, hw, hbranch⟩)
      show (s.branches.erase name).get? name' = some b
      rw [Dict.get?_erase, if_neg hne]
      exact hb
    noBranch := by
      intro name' b hb _
      have hb : (s.branches.erase name).get? name' = some b := hb
      rw [Dict.get?_erase] at hb
      split at hb
      · cases hb
      · exact hb
    checkedOut := fun _ _ _ _ hw _ _ _ => hw }

theorem kept_removeDir {root : String} (h : s.drawn.get? root ≠ some i) :
    Kept i s (s.removeDir root) :=
  { Kept.refl i s with
    dir := by
      intro root' hdrawn hdir
      have hne : root' ≠ root := fun heq => h (heq ▸ hdrawn)
      exact List.mem_filter.mpr ⟨hdir, decide_eq_true hne⟩ }

theorem kept_makeDir (root : String) : Kept i s (s.makeDir root) :=
  { Kept.refl i s with dir := fun _ _ hdir => List.mem_cons_of_mem root hdir }

theorem kept_setDrawn {root : String} (h : s.drawn.get? root = none) :
    Kept i s (s.setDrawn root j) :=
  { Kept.refl i s with
    drawn := by
      intro root' hdrawn
      have hne : root' ≠ root := by
        rintro rfl
        rw [h] at hdrawn
        cases hdrawn
      show (s.drawn.set root j).get? root' = some i
      rw [Dict.get?_set, if_neg hne]
      exact hdrawn }

/-- A new branch of another. -/
theorem kept_setBranch {name : String} {b : Branch ι} (h : s.branches.get? name = none)
    (howner : b.owner ≠ some i) : Kept i s (s.setBranch name b) :=
  { Kept.refl i s with
    branch := by
      intro root w name' b' _ _ _ _ hb
      have hne : name' ≠ name := by
        rintro rfl
        rw [h] at hb
        cases hb
      show (s.branches.set name b).get? name' = some b'
      rw [Dict.get?_set, if_neg hne]
      exact hb
    noBranch := by
      intro name' b' hb howner'
      have hb : (s.branches.set name b).get? name' = some b' := hb
      rw [Dict.get?_set] at hb
      split at hb
      · obtain rfl := Option.some.inj hb
        exact absurd howner' howner
      · exact hb
    checkedOut := fun _ _ _ _ hw _ _ _ => hw }

/-- A registration of another, detached or with a branch of its own. -/
theorem kept_setWorktree {root : String} {w : Worktree ι} (howner : w.owner ≠ some i)
    (hroot : s.drawn.get? root ≠ some i)
    (hbranch : ∀ name b, w.branch = some name → s.branches.get? name = some b → b.owner ≠ some i) :
    Kept i s (s.setWorktree root w) :=
  { Kept.refl i s with
    worktree := by
      intro root' w' hdrawn _ hw
      have hne : root' ≠ root := fun heq => hroot (heq ▸ hdrawn)
      show (s.worktrees.set root w).get? root' = some w'
      rw [Dict.get?_set, if_neg hne]
      exact hw
    noWorktree := by
      intro root' w' hw howner'
      have hw : (s.worktrees.set root w).get? root' = some w' := hw
      rw [Dict.get?_set] at hw
      split at hw
      · obtain rfl := Option.some.inj hw
        exact absurd howner' howner
      · exact hw
    checkedOut := by
      intro root' w' name b hw hname hb howner'
      have hw : (s.worktrees.set root w).get? root' = some w' := hw
      rw [Dict.get?_set] at hw
      split at hw
      · obtain rfl := Option.some.inj hw
        exact absurd howner' (hbranch name b hname hb)
      · exact hw }

theorem kept_setPhase [DecidableEq ι] (h : i ≠ j) (phase : Phase) :
    Kept i s (s.setPhase j phase) :=
  { Kept.refl i s with
    phase := by
      show Function.update s.phase j phase i = s.phase i
      exact Function.update_of_ne h phase s.phase }

/-! ### Soundness -/

namespace Repository.Sound

theorem of_fewerWorktrees {worktrees : Dict String (Worktree ι)} (h : s.Sound)
    (hfewer : ∀ root w, worktrees.get? root = some w → s.worktrees.get? root = some w) :
    Sound { s with worktrees } := by
  rintro name (hhead | ⟨root, w, hw, hbranch⟩)
  · exact h name (.inl hhead)
  · exact h name (.inr ⟨root, w, hfewer root w hw, hbranch⟩)

theorem prune (h : s.Sound) (expired : List String) : (s.prune expired).Sound := by
  refine h.of_fewerWorktrees fun root w hw => ?_
  rw [Dict.get?_foldl_erase] at hw
  split at hw
  · cases hw
  · exact hw

theorem removeWorktree (h : s.Sound) (root : String) : (s.removeWorktree root).Sound := by
  refine h.of_fewerWorktrees fun root' w hw => ?_
  rw [Dict.get?_erase] at hw
  split at hw
  · cases hw
  · exact hw

theorem removeBranch (h : s.Sound) {name : String} (hname : ¬ s.CheckedOut name) :
    (s.removeBranch name).Sound := by
  intro name' hout
  have hne : name' ≠ name := by
    rintro rfl
    exact hname hout
  show name' ∈ (s.branches.erase name).keys
  rw [← Dict.isSome_get?_iff, Dict.get?_erase, if_neg hne, Dict.isSome_get?_iff]
  exact h name' hout

theorem setBranch (h : s.Sound) (name : String) (b : Branch ι) : (s.setBranch name b).Sound :=
  fun name' hout => Dict.mem_keys_set.mpr (.inr (h name' hout))

theorem setWorktree (h : s.Sound) (root : String) {w : Worktree ι}
    (hw : ∀ name, w.branch = some name → name ∈ s.branches.keys) : (s.setWorktree root w).Sound := by
  rintro name (hhead | ⟨root', w', hw', hbranch⟩)
  · exact h name (.inl hhead)
  · have hw' : (s.worktrees.set root w).get? root' = some w' := hw'
    rw [Dict.get?_set] at hw'
    split at hw'
    · obtain rfl := Option.some.inj hw'
      exact hw name hbranch
    · exact h name (.inr ⟨root', w', hw', hbranch⟩)

end Repository.Sound

/-! ### What the operations do -/

/-- An operation that concerns no session in particular: it keeps what is anyone's. -/
def Op.IsQuiet : Op → Prop
  | .dateNow | .enter _ | .leave _ | .worktreePrune | .forEachRef | .deleteStale _
  | .showCurrentBranch | .statusShort _ | .diff _ => True
  | .called | .settled _ | .cleanupCalled | .cleaned | .mkdtemp _ | .worktreeAdd _ _
  | .checkoutNewBranch _ _ | .rm _ | .worktreeRemove _ | .branchDelete _ => False

variable [DecidableEq ι] {choice : Choice}

theorem kept_of_quiet {o : Op} {x : Except RuntimeError o.Res} (ho : o.IsQuiet)
    (h : serve j choice o s = some (x, t)) : Kept i s t := by
  cases o with
  | dateNow =>
    obtain ⟨-, rfl⟩ := Prod.mk.inj (Option.some.inj h)
    exact Kept.refl i s
  | leave repoRoot =>
    obtain ⟨-, rfl⟩ := Prod.mk.inj (Option.some.inj h)
    exact { Kept.refl i s with }
  | enter repoRoot =>
    simp only [serve] at h
    split_ifs at h
    obtain ⟨-, rfl⟩ := Prod.mk.inj (Option.some.inj h)
    exact { Kept.refl i s with }
  | worktreePrune =>
    simp only [serve] at h
    split_ifs at h
    · obtain ⟨-, rfl⟩ := Prod.mk.inj (Option.some.inj h)
      exact kept_prune choice.expired
    · obtain ⟨-, rfl⟩ := Prod.mk.inj (Option.some.inj h)
      exact Kept.refl i s
  | deleteStale name =>
    simp only [serve] at h
    split_ifs at h with hfails
    · obtain ⟨-, rfl⟩ := Prod.mk.inj (Option.some.inj h)
      exact Kept.refl i s
    · obtain ⟨-, rfl⟩ := Prod.mk.inj (Option.some.inj h)
      refine kept_removeBranch fun hout => hfails ?_
      rw [Repository.isCheckedOut_iff.mpr hout, Bool.or_true]
  | forEachRef | showCurrentBranch | statusShort root | diff root =>
    simp only [serve] at h
    split_ifs at h <;> (obtain ⟨-, rfl⟩ := Prod.mk.inj (Option.some.inj h); exact Kept.refl i s)
  | _ => exact ho.elim

theorem sound_of_serve {o : Op} {x : Except RuntimeError o.Res} (hs : s.Sound)
    (h : serve j choice o s = some (x, t)) : t.Sound := by
  cases o with
  | dateNow | called | cleanupCalled | cleaned | leave _ | rm _ =>
    obtain ⟨-, rfl⟩ := Prod.mk.inj (Option.some.inj h)
    exact hs
  | settled workspace =>
    cases workspace <;> (obtain ⟨-, rfl⟩ := Prod.mk.inj (Option.some.inj h); exact hs)
  | enter repoRoot =>
    simp only [serve] at h
    split_ifs at h
    obtain ⟨-, rfl⟩ := Prod.mk.inj (Option.some.inj h)
    exact hs
  | mkdtemp template =>
    simp only [serve] at h
    split_ifs at h <;> (obtain ⟨-, rfl⟩ := Prod.mk.inj (Option.some.inj h); exact hs)
  | worktreePrune =>
    simp only [serve] at h
    split_ifs at h <;> obtain ⟨-, rfl⟩ := Prod.mk.inj (Option.some.inj h)
    · exact hs.prune choice.expired
    · exact hs
  -- Git refuses to delete a branch that some worktree has checked out.
  | deleteStale name | branchDelete name =>
    simp only [serve] at h
    split_ifs at h with hfails <;> obtain ⟨-, rfl⟩ := Prod.mk.inj (Option.some.inj h)
    · exact hs
    · refine hs.removeBranch fun hout => hfails ?_
      rw [Repository.isCheckedOut_iff.mpr hout, Bool.or_true]
  -- A new worktree is detached, so it names no branch that could be missing.
  | worktreeAdd root base =>
    simp only [serve] at h
    split_ifs at h <;> obtain ⟨-, rfl⟩ := Prod.mk.inj (Option.some.inj h)
    · exact hs
    · have hdir : (s.makeDir root).Sound := hs
      exact hdir.setWorktree root nofun
  | checkoutNewBranch root name =>
    simp only [serve] at h
    cases hget : s.worktrees.get? root with
    | none =>
      rw [hget] at h
      obtain ⟨-, rfl⟩ := Prod.mk.inj (Option.some.inj h)
      exact hs
    | some worktree =>
      rw [hget] at h
      dsimp only at h
      split_ifs at h <;> obtain ⟨-, rfl⟩ := Prod.mk.inj (Option.some.inj h)
      · exact hs
      -- The branch is made and checked out by the one command.
      · refine (hs.setBranch name _).setWorktree root fun name' hname => ?_
        obtain rfl := Option.some.inj hname
        exact Dict.mem_keys_set.mpr (.inl rfl)
  | worktreeRemove root =>
    simp only [serve] at h
    split_ifs at h <;> obtain ⟨-, rfl⟩ := Prod.mk.inj (Option.some.inj h)
    · exact hs.removeWorktree root
    · exact hs
  | forEachRef | showCurrentBranch | statusShort root | diff root =>
    simp only [serve] at h
    split_ifs at h <;> (obtain ⟨-, rfl⟩ := Prod.mk.inj (Option.some.inj h); exact hs)

theorem serve_mkdtemp {template : String} {x : Except RuntimeError String}
    (h : serve i choice (.mkdtemp template) s = some (x, t)) :
    ((∃ e, x = .error e) ∧ t = s) ∨
      ∃ root, x = .ok root ∧ s.drawn.get? root = none ∧ t = (s.setDrawn root i).makeDir root := by
  simp only [serve] at h
  split_ifs at h with hfails hdrawn
  · obtain ⟨rfl, rfl⟩ := Prod.mk.inj (Option.some.inj h)
    exact .inl ⟨⟨_, rfl⟩, rfl⟩
  · obtain ⟨rfl, rfl⟩ := Prod.mk.inj (Option.some.inj h)
    refine .inr ⟨_, rfl, ?_, rfl⟩
    rw [Bool.or_eq_true, not_or, Bool.not_eq_true, Bool.not_eq_true] at hdrawn
    exact Option.isSome_eq_false_iff.mp hdrawn.2 |> Option.isNone_iff_eq_none.mp

/-- Behind `git worktree add`, which does not fail once it has registered the worktree, the commands of
`allocate` succeed. -/
def lateSucceeds (choice : Choice) (o : Op) (s : Repository ι) : Bool :=
  match o with
  | .worktreeAdd _ _ => !(choice.fails && choice.late)
  | .checkoutNewBranch _ name => !choice.fails && !s.branches.contains name
  | .statusShort _ | .diff _ => !choice.fails
  | _ => true

theorem answer_cases {α : Type} (choice : Choice) (a : α) :
    choice.answer a = .ok a ∨ (∃ e, choice.answer a = .error e) ∧ choice.fails = true := by
  unfold Choice.answer
  split
  · next hfails => exact .inr ⟨⟨_, rfl⟩, hfails⟩
  · exact .inl rfl

/-- `git worktree add` does nothing, or registers the worktree; then it may still fail. -/
theorem serve_worktreeAdd {root base : String} {x : Except RuntimeError Unit}
    (h : serve i choice (.worktreeAdd root base) s = some (x, t)) :
    ((∃ e, x = .error e) ∧ t = s) ∨
      (x = .ok () ∨ (∃ e, x = .error e) ∧ lateSucceeds choice (.worktreeAdd root base) s = false) ∧
        s.worktrees.get? root = none ∧
        t = (s.makeDir root).setWorktree root { branch := none, owner := some i } := by
  simp only [serve] at h
  split_ifs at h with hrefused
  · obtain ⟨rfl, rfl⟩ := Prod.mk.inj (Option.some.inj h)
    exact .inl ⟨⟨_, rfl⟩, rfl⟩
  · obtain ⟨rfl, rfl⟩ := Prod.mk.inj (Option.some.inj h)
    simp only [Bool.or_eq_true, not_or, Bool.not_eq_true] at hrefused
    refine .inr ⟨(answer_cases choice ()).imp_right fun hanswer => ⟨hanswer.1, ?_⟩, ?_, rfl⟩
    · have hworks := hrefused.1.1
      rw [Choice.works, hanswer.2] at hworks
      rw [lateSucceeds, hanswer.2]
      simpa using hworks
    · exact Option.isSome_eq_false_iff.mp hrefused.1.2 |> Option.isNone_iff_eq_none.mp

/-- `git checkout -b` does nothing, or checks the new branch out; then it may still fail. -/
theorem serve_checkoutNewBranch {root name : String} {w : Worktree ι} {x : Except RuntimeError Unit}
    (h : serve i choice (.checkoutNewBranch root name) s = some (x, t))
    (hw : s.worktrees.get? root = some w) :
    ((∃ e, x = .error e) ∧ t = s ∧ lateSucceeds choice (.checkoutNewBranch root name) s = false) ∨
      (x = .ok () ∨
        (∃ e, x = .error e) ∧ lateSucceeds choice (.checkoutNewBranch root name) s = false) ∧
        s.branches.get? name = none ∧
        t = (s.setBranch name { createdAt := choice.createdAt, owner := some i }).setWorktree root
          { w with branch := some name } := by
  simp only [serve] at h
  rw [hw] at h
  dsimp only at h
  split_ifs at h with hrefused
  · obtain ⟨rfl, rfl⟩ := Prod.mk.inj (Option.some.inj h)
    refine .inl ⟨⟨_, rfl⟩, rfl, ?_⟩
    rw [lateSucceeds, Bool.and_eq_false_iff]
    rw [Bool.or_eq_true] at hrefused
    rcases hrefused with hworks | htaken
    · exact .inl (by simp only [Choice.works, Bool.not_or, Bool.not_not, Bool.and_eq_true] at hworks
                     rw [hworks.1]; rfl)
    · exact .inr (by rw [htaken]; rfl)
  · obtain ⟨rfl, rfl⟩ := Prod.mk.inj (Option.some.inj h)
    simp only [Bool.or_eq_true, not_or, Bool.not_eq_true] at hrefused
    refine .inr ⟨(answer_cases choice ()).imp_right fun hanswer => ⟨hanswer.1, ?_⟩, ?_, rfl⟩
    · rw [lateSucceeds, hanswer.2]
      rfl
    · exact Option.isSome_eq_false_iff.mp hrefused.2 |> Option.isNone_iff_eq_none.mp

theorem serve_worktreeRemove {root : String} {w : Worktree ι} {x : Except RuntimeError Unit}
    (h : serve i choice (.worktreeRemove root) s = some (x, t))
    (hw : s.worktrees.get? root = some w) :
    x = .ok () ∧ t = (s.removeWorktree root).removeDir root := by
  simp only [serve] at h
  rw [if_pos (Dict.contains_iff.mpr (Dict.mem_keys_of_get? hw))] at h
  obtain ⟨rfl, rfl⟩ := Prod.mk.inj (Option.some.inj h)
  exact ⟨rfl, rfl⟩

theorem serve_branchDelete {name : String} {x : Except RuntimeError Unit}
    (h : serve i choice (.branchDelete name) s = some (x, t)) :
    (t = s ∧ (name ∉ s.branches.keys ∨ s.CheckedOut name)) ∨
      ¬ s.CheckedOut name ∧ t = s.removeBranch name := by
  simp only [serve] at h
  split_ifs at h with hfails
  · obtain ⟨-, rfl⟩ := Prod.mk.inj (Option.some.inj h)
    refine .inl ⟨rfl, ?_⟩
    rw [Bool.or_eq_true, Repository.isCheckedOut_iff, Bool.not_eq_true'] at hfails
    refine hfails.imp_left fun hnot hmem => ?_
    rw [Dict.contains_iff.mpr hmem] at hnot
    cases hnot
  · obtain ⟨-, rfl⟩ := Prod.mk.inj (Option.some.inj h)
    refine .inr ⟨fun hout => hfails ?_, rfl⟩
    rw [Repository.isCheckedOut_iff.mpr hout, Bool.or_true]

/-! ### Where a session is -/

/-- The session has neither a registration nor a branch. -/
structure Clear (i : ι) (s : Repository ι) : Prop where
  noWorktree : s.NoWorktree i
  noBranch : s.NoBranch i

/-- The directory exists. -/
structure Drawn (i : ι) (root : String) (s : Repository ι) : Prop extends Clear i s where
  drawn : s.drawn.get? root = some i
  dir : root ∈ s.dirs

/-- The worktree is registered, detached. -/
structure Added (i : ι) (root : String) (s : Repository ι) : Prop where
  drawn : s.drawn.get? root = some i
  dir : root ∈ s.dirs
  worktree : s.worktrees.get? root = some { branch := none, owner := some i }
  only : ∀ root' w, s.worktrees.get? root' = some w → w.owner = some i → root' = root
  noBranch : s.NoBranch i

/-- The worktree is registered, and its branch is the session's own. -/
structure Held (i : ι) (root name : String) (s : Repository ι) : Prop where
  drawn : s.drawn.get? root = some i
  dir : root ∈ s.dirs
  worktree : s.worktrees.get? root = some { branch := some name, owner := some i }
  only : ∀ root' w, s.worktrees.get? root' = some w → w.owner = some i → root' = root
  branch : ∃ b, s.branches.get? name = some b ∧ b.owner = some i
  onlyBranch : ∀ name' b, s.branches.get? name' = some b → b.owner = some i → name' = name
  alone : ∀ root' w, s.worktrees.get? root' = some w → w.branch = some name → root' = root
  head : s.head ≠ some name

/-- The worktree is removed; the branch is the session's, if it still exists. -/
structure Removed (i : ι) (root name : String) (s : Repository ι) : Prop where
  drawn : s.drawn.get? root = some i
  noWorktree : s.NoWorktree i
  onlyBranch : ∀ name' b, s.branches.get? name' = some b → b.owner = some i →
    name' = name ∧ ¬ s.CheckedOut name

/-- What the others keep. -/
def Stable (i : ι) (P : Repository ι → Prop) : Prop :=
  ∀ s t, Kept i s t → P s → P t

omit [DecidableEq ι] in
theorem noWorktree_stable : Stable i (Repository.NoWorktree i) := by
  intro s t h hs root w hw howner
  exact hs root w (h.noWorktree root w hw howner) howner

omit [DecidableEq ι] in
theorem noBranch_stable : Stable i (Repository.NoBranch i) := by
  intro s t h hs name b hb howner
  exact hs name b (h.noBranch name b hb howner) howner

omit [DecidableEq ι] in
theorem clear_stable : Stable i (Clear i) :=
  fun s t h hs => ⟨noWorktree_stable s t h hs.noWorktree, noBranch_stable s t h hs.noBranch⟩

omit [DecidableEq ι] in
theorem drawn_stable (root : String) : Stable i (Drawn i root) := by
  intro s t h hs
  exact ⟨clear_stable s t h hs.toClear, h.drawn root hs.drawn, h.dir root hs.drawn hs.dir⟩

omit [DecidableEq ι] in
theorem added_stable (root : String) : Stable i (Added i root) := by
  intro s t h hs
  refine ⟨h.drawn root hs.drawn, h.dir root hs.drawn hs.dir,
    h.worktree root _ hs.drawn hs.dir hs.worktree, ?_, noBranch_stable s t h hs.noBranch⟩
  intro root' w hw howner
  exact hs.only root' w (h.noWorktree root' w hw howner) howner

omit [DecidableEq ι] in
theorem held_stable (root name : String) : Stable i (Held i root name) := by
  intro s t h hs
  obtain ⟨b, hb, howner⟩ := hs.branch
  have hkept := h.branch root _ name b hs.drawn hs.dir hs.worktree rfl hb
  refine ⟨h.drawn root hs.drawn, h.dir root hs.drawn hs.dir,
    h.worktree root _ hs.drawn hs.dir hs.worktree, ?_, ⟨b, hkept, howner⟩, ?_, ?_, ?_⟩
  · intro root' w hw howner'
    exact hs.only root' w (h.noWorktree root' w hw howner') howner'
  · intro name' b' hb' howner'
    exact hs.onlyBranch name' b' (h.noBranch name' b' hb' howner') howner'
  · intro root' w hw hbranch
    exact hs.alone root' w (h.checkedOut root' w name b hw hbranch hkept howner) hbranch
  · rw [h.head]
    exact hs.head

omit [DecidableEq ι] in
theorem removed_stable (root name : String) : Stable i (Removed i root name) := by
  intro s t h hs
  refine ⟨h.drawn root hs.drawn, noWorktree_stable s t h hs.noWorktree, ?_⟩
  intro name' b hb howner
  obtain ⟨rfl, hout⟩ := hs.onlyBranch name' b (h.noBranch name' b hb howner) howner
  refine ⟨rfl, ?_⟩
  rintro (hhead | ⟨root', w, hw, hbranch⟩)
  · exact hout (.inl (h.head ▸ hhead))
  · exact hout (.inr ⟨root', w, h.checkedOut root' w name' b hw hbranch hb howner, hbranch⟩)

end Worktrees

end AiOrchestrator
