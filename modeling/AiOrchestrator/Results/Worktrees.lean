import AiOrchestrator.Execution.WorktreeOwnership

/-!
# The bookkeeping of worktrees

`safe_session` follows the program of a session through the assertions of `WorktreeOwnership`, one rule for
each operation. `Booked` is what this means for the books, `booked_run` that they are kept in every run, and
`bookkeeping_of_run` what follows for the worktrees and branches of the repository. `checkoutFails` and
`hookFails` are runs in which a failed `allocate` leaves its registration.
-/

namespace AiOrchestrator

namespace Worktrees

variable {ι : Type} [DecidableEq ι] {i j : ι} {s t u : Repository ι} {choice : Choice}

/-! ### The judgement -/

/-- What the bookkeeping is about: the registration and the branch of a workspace in use, and nothing
else. That nothing is left of a failed call is promised where the late commands succeed. -/
def Booked (reliable : Bool) (i : ι) (s : Repository ι) : Prop :=
  match s.phase i with
  | .notCalled => Clear i s
  | .busy => True
  | .inUse workspace => ∃ name, workspace.branchName = some name ∧ Held i workspace.rootPath name s
  | .finished => reliable = true → Clear i s

omit [DecidableEq ι] in
theorem booked_stable (reliable : Bool) : Stable i (Booked reliable i) := by
  intro s t h hs
  unfold Booked at hs ⊢
  rw [h.phase]
  cases hphase : s.phase i with
  | notCalled =>
    rw [hphase] at hs
    exact clear_stable s t h hs
  | busy => trivial
  | inUse workspace =>
    rw [hphase] at hs
    obtain ⟨name, hname, hheld⟩ := hs
    exact ⟨name, hname, held_stable _ name s t h hheld⟩
  | finished =>
    rw [hphase] at hs
    exact fun hreliable => clear_stable s t h (hs hreliable)

/-- The operations that may happen: all of them, or those where no late command fails. -/
def allows (reliable : Bool) (choice : Choice) (o : Op) (s : Repository ι) : Bool :=
  !reliable || lateSucceeds choice o s

/-- The server whose late commands do not fail, where `reliable` says so. -/
abbrev serverOf (ι : Type) [DecidableEq ι] (reliable : Bool) :
    Server ι Op (fun o => Except RuntimeError o.Res) (Repository ι) Choice Empty :=
  (server ι).only (allows reliable)

def Rely (i : ι) (s t : Repository ι) : Prop :=
  s.Sound → t.Sound ∧ Kept i s t

def Guar (reliable : Bool) (i : ι) (s t : Repository ι) : Prop :=
  s.Sound → t.Sound ∧ (∀ j, j ≠ i → Kept j s t) ∧ Booked reliable i t

/-- The session is in the phase, and the assertion holds. -/
structure Within (i : ι) (phase : Phase) (P : Repository ι → Prop) (s : Repository ι) : Prop where
  sound : s.Sound
  phase : s.phase i = phase
  holds : P s

abbrev SafeIn {α : Type} (reliable : Bool) (i : ι) (m : Call α)
    (Q : Except RuntimeError α → Repository ι → Prop) (s : Repository ι) : Prop :=
  Act.Safe ((serverOf ι reliable).eff i) (Rely i) (Guar reliable i) m Q s

section Rules

variable {reliable : Bool} {P : Repository ι → Prop}

omit [DecidableEq ι] in
theorem Within.of_rely {phase : Phase} (hP : Stable i P) (hs : Within i phase P s)
    (h : Rely i s t) : Within i phase P t := by
  obtain ⟨hsound, hkept⟩ := h hs.sound
  exact ⟨hsound, hkept.phase.trans hs.phase, hP s t hkept hs.holds⟩

/-- **The rule for an operation** inside a call. -/
theorem safe_request {o : Op} {Q : Except RuntimeError o.Res → Repository ι → Prop} (hP : Stable i P)
    (hs : Within i .busy P s)
    (hop : ∀ c t x u, allows reliable c o t = true → t.Sound → P t → serve i c o t = some (x, u) →
      (∀ j, j ≠ i → Kept j t u) ∧ u.phase i = t.phase i ∧ Q x u) :
    SafeIn reliable i (request o) (fun x => Within i .busy (Q x)) s := by
  refine Act.safe_ask (P := Within i .busy P) hs (fun s t hs h => hs.of_rely hP h) ?_
  intro t x u ht he
  obtain ⟨c, hallowed, hserve⟩ := Server.eff_only.mp he
  obtain ⟨hkept, hphase, hQ⟩ := hop c t x u hallowed ht.sound ht.holds hserve
  have hsound := sound_of_serve ht.sound hserve
  have hbusy := hphase.trans ht.phase
  refine ⟨fun _ => ⟨hsound, hkept, ?_⟩, ⟨hsound, hbusy, hQ⟩⟩
  unfold Booked
  rw [hbusy]
  trivial

/-- **Quiet operations** keep where the session is. -/
theorem safe_of_quiet {α : Type} {m : Call α} (hm : Act.Uses Op.IsQuiet m) (hP : Stable i P)
    (hs : Within i .busy P s) : SafeIn reliable i m (fun _ => Within i .busy P) s := by
  refine Act.safe_of_uses_keeps hm hs (fun s t hs h => hs.of_rely hP h) ?_
  intro o t x u ho ht he
  obtain ⟨c, -, hserve⟩ := Server.eff_only.mp he
  have hsound := sound_of_serve ht.sound hserve
  have hkept : Kept i t u := kept_of_quiet ho hserve
  have hbusy := hkept.phase.trans ht.phase
  refine ⟨fun _ => ⟨hsound, fun j _ => kept_of_quiet ho hserve, ?_⟩, ⟨hsound, hbusy, hP t u hkept ht.holds⟩⟩
  unfold Booked
  rw [hbusy]
  trivial

omit [DecidableEq ι] in
/-- The mutex adds nothing to what its body does to the repository. -/
theorem safe_runExclusive [DecidableEq ι] {α : Type} {repoRoot : String} {body : Call α}
    {Q : Except RuntimeError α → Repository ι → Prop} (hP : Stable i P) (hQ : ∀ x, Stable i (Q x))
    (hbody : ∀ s, Within i .busy P s → SafeIn reliable i body (fun x => Within i .busy (Q x)) s)
    (hs : Within i .busy P s) :
    SafeIn reliable i (runExclusive repoRoot body) (fun x => Within i .busy (Q x)) s := by
  have hholder : ∀ {o : Op} {P' : Repository ι → Prop} {s : Repository ι},
      ((∃ key, o = .enter key) ∨ ∃ key, o = .leave key) → Stable i P' → Within i .busy P' s →
      SafeIn reliable i (request o) (fun x => Within i .busy fun u => (∃ a, x = .ok a) ∧ P' u) s := by
    intro o P' s ho hP' hs
    refine safe_request hP' hs ?_
    intro c t x u _ _ ht hserve
    have hquiet : o.IsQuiet := by
      rcases ho with ⟨key, rfl⟩ | ⟨key, rfl⟩ <;> trivial
    have hkept : ∀ j, Kept j t u := fun j => kept_of_quiet hquiet hserve
    refine ⟨fun j _ => hkept j, (hkept i).phase, ?_, hP' t u (hkept i) ht⟩
    rcases ho with ⟨key, rfl⟩ | ⟨key, rfl⟩
    · simp only [serve] at hserve
      split_ifs at hserve
      obtain ⟨rfl, -⟩ := Prod.mk.inj (Option.some.inj hserve)
      exact ⟨_, rfl⟩
    · obtain ⟨rfl, -⟩ := Prod.mk.inj (Option.some.inj hserve)
      exact ⟨_, rfl⟩
  unfold runExclusive
  rw [SafeIn, Act.safe_bind]
  refine (hholder (.inl ⟨_, rfl⟩) hP hs).mono ?_
  rintro r t ht
  obtain ⟨a, rfl⟩ := ht.holds.1
  show Act.Safe _ _ _ (Act.finallyDo body _) _ t
  rw [Act.safe_finallyDo]
  refine (hbody t ⟨ht.sound, ht.phase, ht.holds.2⟩).mono ?_
  intro x u hu
  refine (hholder (.inr ⟨_, rfl⟩) (hQ x) hu).mono ?_
  rintro r v hv
  obtain ⟨a', rfl⟩ := hv.holds.1
  exact ⟨hv.sound, hv.phase, hv.holds.2⟩

end Rules

/-! ### The operations of a session -/

section Session

variable {reliable : Bool}

theorem safe_mkdtemp (template : String) (hs : Within i .busy (Clear i) s) :
    SafeIn reliable i (request (.mkdtemp template))
      (fun x => Within i .busy fun u => (∀ root, x = .ok root → Drawn i root u) ∧ Clear i u) s := by
  refine safe_request clear_stable hs ?_
  intro c t x u _ _ ht hserve
  obtain ⟨⟨e, rfl⟩, rfl⟩ | ⟨root, rfl, hnew, rfl⟩ := serve_mkdtemp hserve
  · exact ⟨fun j _ => Kept.refl j u, rfl, nofun, ht⟩
  · refine ⟨fun j _ => (kept_setDrawn hnew).trans (kept_makeDir root), rfl, ?_, ⟨ht.1, ht.2⟩⟩
    intro root' hroot
    obtain rfl := Except.ok.inj hroot
    exact ⟨⟨ht.1, ht.2⟩, Dict.get?_set_self _ _ _, List.mem_cons_self⟩

/-- Where `allocate` fails, its directory is still there; where no late command fails, nothing else is. -/
structure Failed (reliable : Bool) (i : ι) (root : String) (s : Repository ι) : Prop where
  drawn : s.drawn.get? root = some i
  clear : reliable = true → Clear i s

omit [DecidableEq ι] in
theorem failed_stable (root : String) : Stable i (Failed reliable i root) := fun s t h hs =>
  ⟨h.drawn root hs.drawn, fun hreliable => clear_stable s t h (hs.clear hreliable)⟩

omit [DecidableEq ι] in
/-- A late command does not fail where these are reliable. -/
theorem failed_of_late {o : Op} (hallowed : allows reliable choice o s = true)
    (hlate : lateSucceeds choice o s = false) {root : String} (hdrawn : t.drawn.get? root = some i) :
    Failed reliable i root t := by
  rw [allows, hlate, Bool.or_false, Bool.not_eq_true'] at hallowed
  exact ⟨hdrawn, fun hreliable => absurd (hallowed.symm.trans hreliable) Bool.false_ne_true⟩

theorem safe_worktreeAdd {root base : String} (hs : Within i .busy (Drawn i root) s) :
    SafeIn reliable i (request (.worktreeAdd root base))
      (fun x => Within i .busy (Act.outcome (fun _ => Added i root) (fun _ => Failed reliable i root) x))
      s := by
  refine safe_request (drawn_stable root) hs ?_
  intro c t x u hallowed _ ht hserve
  obtain ⟨⟨e, rfl⟩, rfl⟩ | ⟨hx, hnew, rfl⟩ := serve_worktreeAdd hserve
  · exact ⟨fun j _ => Kept.refl j u, rfl, ht.drawn, fun _ => ht.toClear⟩
  · have hadded : Added i root
        ((t.makeDir root).setWorktree root { branch := none, owner := some i }) := by
      refine ⟨ht.drawn, List.mem_cons_of_mem root ht.dir, Dict.get?_set_self _ _ _, ?_, ht.noBranch⟩
      intro root' w hw howner
      by_contra hne
      have hw : (t.worktrees.set root _).get? root' = some w := hw
      rw [Dict.get?_set, if_neg hne] at hw
      exact ht.noWorktree root' w hw howner
    refine ⟨fun j hj => (kept_makeDir root).trans (kept_setWorktree ?_ ?_ nofun), rfl, ?_⟩
    · exact fun howner => hj (Option.some.inj howner).symm
    · intro hdrawn
      exact hj (Option.some.inj (hdrawn.symm.trans ht.drawn))
    · rcases hx with rfl | ⟨⟨e, rfl⟩, hlate⟩
      · exact hadded
      · exact failed_of_late hallowed hlate hadded.drawn

/-- Where the branch is new, it is neither checked out nor the session's. -/
theorem safe_checkoutNewBranch {root : String} (name : String) (hs : Within i .busy (Added i root) s) :
    SafeIn reliable i (request (.checkoutNewBranch root name))
      (fun x => Within i .busy (Act.outcome (fun _ => Held i root name)
        (fun _ => Failed reliable i root) x)) s := by
  refine safe_request (added_stable root) hs ?_
  intro c t x u hallowed hsound ht hserve
  obtain ⟨⟨e, rfl⟩, rfl, hlate⟩ | ⟨hx, hnew, rfl⟩ := serve_checkoutNewBranch hserve ht.worktree
  · exact ⟨fun j _ => Kept.refl j u, rfl, failed_of_late hallowed hlate ht.drawn⟩
  · have hout : ¬ t.CheckedOut name := by
      intro hout
      obtain ⟨b, hb⟩ := Dict.exists_get?_iff.mpr (hsound name hout)
      rw [hnew] at hb
      cases hb
    have hother : ∀ {j}, j ≠ i → (some i : Option ι) ≠ some j :=
      fun hj howner => hj (Option.some.inj howner).symm
    refine ⟨fun j hj => (kept_setBranch hnew (hother hj)).trans (kept_setWorktree (hother hj) ?_ ?_),
      rfl, ?_⟩
    · intro hdrawn
      exact hj (Option.some.inj (hdrawn.symm.trans ht.drawn))
    · intro name' b hname hb
      obtain rfl := Option.some.inj hname
      obtain rfl := Option.some.inj ((Dict.get?_set_self _ _ _).symm.trans hb)
      exact hother hj
    rcases hx with rfl | ⟨⟨e, rfl⟩, hlate⟩
    · refine
        { drawn := ht.drawn, dir := ht.dir, worktree := Dict.get?_set_self _ _ _
          only := ?_, branch := ⟨_, Dict.get?_set_self _ _ _, rfl⟩, onlyBranch := ?_, alone := ?_
          head := fun hhead => hout (.inl hhead) }
      · intro root' w hw howner
        by_contra hne
        have hw : (t.worktrees.set root _).get? root' = some w := hw
        rw [Dict.get?_set, if_neg hne] at hw
        exact hne (ht.only root' w hw howner)
      · intro name' b hb howner
        by_contra hne
        have hb : (t.branches.set name _).get? name' = some b := hb
        rw [Dict.get?_set, if_neg hne] at hb
        exact ht.noBranch name' b hb howner
      · intro root' w hw hbranch
        by_contra hne
        have hw : (t.worktrees.set root _).get? root' = some w := hw
        rw [Dict.get?_set, if_neg hne] at hw
        exact hout (.inr ⟨root', w, hw, hbranch⟩)
    · exact failed_of_late hallowed hlate ht.drawn

/-- A command of `captureWorkspaceDiff`. -/
theorem safe_capture {root name : String} {o : Op} (hs : Within i .busy (Held i root name) s)
    (ho : o = .statusShort root ∨ o = .diff root) :
    SafeIn reliable i (request o)
      (fun x => Within i .busy fun u => Held i root name u ∧ ((∃ e, x = .error e) → reliable = false))
      s := by
  refine safe_request (held_stable root name) hs ?_
  intro c t x u hallowed _ ht hserve
  have hquiet : o.IsQuiet := by
    rcases ho with rfl | rfl <;> trivial
  have hkept : ∀ j, Kept j t u := fun j => kept_of_quiet hquiet hserve
  refine ⟨fun j _ => hkept j, (hkept i).phase, held_stable root name t u (hkept i) ht, ?_⟩
  rintro ⟨e, rfl⟩
  by_contra hreliable
  rw [allows, Bool.eq_true_of_not_eq_false hreliable] at hallowed
  rcases ho with rfl | rfl
  · simp only [serve] at hserve
    split_ifs at hserve with hfails
    · simp [lateSucceeds, hfails] at hallowed
    · cases hserve
  · simp only [serve] at hserve
    split_ifs at hserve with hfails
    · simp [lateSucceeds, hfails] at hallowed
    · cases hserve

theorem safe_rm {root : String} {P : Repository ι → Prop} (hP : Stable i P)
    (hdrawn : ∀ s, P s → s.drawn.get? root = some i) (hs : Within i .busy P s)
    {Q : Repository ι → Prop} (hQ : ∀ s, P s → Q (s.removeDir root)) :
    SafeIn reliable i (request (.rm root)) (fun x => Within i .busy fun u => x = .ok () ∧ Q u) s := by
  refine safe_request hP hs ?_
  intro c t x u _ _ ht hserve
  obtain ⟨rfl, rfl⟩ := Prod.mk.inj (Option.some.inj hserve)
  refine ⟨fun j hj => kept_removeDir fun hother => hj ?_, rfl, rfl, hQ t ht⟩
  exact Option.some.inj (hother.symm.trans (hdrawn t ht))

theorem safe_worktreeRemove {root name : String} (hs : Within i .busy (Held i root name) s) :
    SafeIn reliable i (request (.worktreeRemove root)) (fun _ => Within i .busy (Removed i root name))
      s := by
  refine safe_request (held_stable root name) hs ?_
  intro c t x u _ _ ht hserve
  obtain ⟨rfl, rfl⟩ := serve_worktreeRemove hserve ht.worktree
  have hother : ∀ {j}, j ≠ i → t.drawn.get? root ≠ some j := by
    intro j hj hdrawn
    exact hj (Option.some.inj (hdrawn.symm.trans ht.drawn))
  refine ⟨fun j hj => (kept_removeWorktree (hother hj)).trans (kept_removeDir (hother hj)), rfl,
    ht.drawn, ?_, ?_⟩
  · intro root' w hw howner
    have hw : (t.worktrees.erase root).get? root' = some w := hw
    rw [Dict.get?_erase] at hw
    split_ifs at hw with hne
    exact hne (ht.only root' w hw howner)
  · intro name' b hb howner
    obtain rfl := ht.onlyBranch name' b hb howner
    refine ⟨rfl, ?_⟩
    rintro (hhead | ⟨root', w, hw, hbranch⟩)
    · exact ht.head hhead
    · have hw : (t.worktrees.erase root).get? root' = some w := hw
      rw [Dict.get?_erase] at hw
      split_ifs at hw with hne
      exact hne (ht.alone root' w hw hbranch)

/-- Whether or not the branch is deleted, it is not the session's afterwards. -/
theorem safe_branchDelete {root name : String} (hs : Within i .busy (Removed i root name) s) :
    SafeIn reliable i (request (.branchDelete name)) (fun _ => Within i .busy (Clear i)) s := by
  refine safe_request (removed_stable root name) hs ?_
  intro c t x u _ _ ht hserve
  obtain ⟨rfl, hkept⟩ | ⟨hout, rfl⟩ := serve_branchDelete hserve
  · refine ⟨fun j _ => Kept.refl j u, rfl, ht.noWorktree, ?_⟩
    intro name' b hb howner
    obtain ⟨rfl, hout⟩ := ht.onlyBranch name' b hb howner
    rcases hkept with hnone | hchecked
    · exact hnone (Dict.mem_keys_of_get? hb)
    · exact hout hchecked
  · refine ⟨fun j _ => kept_removeBranch hout, rfl, ht.noWorktree, ?_⟩
    intro name' b hb howner
    have hb : (t.branches.erase name).get? name' = some b := hb
    rw [Dict.get?_erase] at hb
    split_ifs at hb with hne
    exact hne (ht.onlyBranch name' b hb howner).1

/-! ### A session -/

omit [DecidableEq ι] in
theorem uses_request {o : Op} (ho : o.IsQuiet) : Act.Uses Op.IsQuiet (request o) :=
  ⟨ho, fun _ => trivial⟩

theorem uses_cleanupStale (branchTtlHours : Int) :
    Act.Uses Op.IsQuiet (cleanupStaleWorktreesAndBranches branchTtlHours) := by
  refine Act.uses_bind (Act.uses_ignoring (uses_request (o := .worktreePrune) trivial)) fun _ => ?_
  refine Act.uses_bind (uses_request (o := .dateNow) trivial) fun now => ?_
  refine Act.uses_bind ?_ fun stdout => ?_
  · exact Act.uses_catching (uses_request (o := .forEachRef) trivial) fun _ => Act.uses_pure ""
  · generalize staleBranches _ _ _ = names
    exact Act.uses_forEach fun name => Act.uses_ignoring (uses_request (o := .deleteStale name) trivial)

theorem uses_currentBranch : Act.Uses Op.IsQuiet currentBranch := by
  refine Act.uses_bind (uses_request (o := .showCurrentBranch) trivial) fun stdout => ?_
  exact Act.uses_ite (Act.uses_throw _) (Act.uses_pure _)

/-- The workspace is the session's own. -/
def Allocated (i : ι) (workspace : ManagedWorkspace) (s : Repository ι) : Prop :=
  ∃ name, workspace.branchName = some name ∧ Held i workspace.rootPath name s

omit [DecidableEq ι] in
theorem allocated_stable (workspace : ManagedWorkspace) : Stable i (Allocated i workspace) :=
  fun s t h ⟨name, hname, hheld⟩ => ⟨name, hname, held_stable _ name s t h hheld⟩

/-- Inside the mutex: a sweep, and the new registration. -/
theorem safe_registration (manager : GitWorktreeWorkspaceManager) {root : String}
    (hs : Within i .busy (Drawn i root) s) :
    SafeIn reliable i
      (runExclusive manager.repoRoot do
        cleanupStaleWorktreesAndBranches manager.branchTtlHours
        let baseBranch ← currentBranch
        request (.worktreeAdd root baseBranch))
      (fun x => Within i .busy (Act.outcome (fun _ => Added i root) (fun _ => Failed reliable i root) x))
      s := by
  have hnothing : ∀ {t : Repository ι}, Within i .busy (Drawn i root) t →
      Within i .busy (Failed reliable i root) t :=
    fun ht => ⟨ht.sound, ht.phase, ht.holds.drawn, fun _ => ht.holds.toClear⟩
  refine safe_runExclusive (drawn_stable root) ?_ ?_ hs
  · intro x
    cases x with
    | ok a => exact added_stable root
    | error e => exact failed_stable root
  · intro s hs
    rw [SafeIn, Act.safe_bind]
    refine (safe_of_quiet (uses_cleanupStale _) (drawn_stable root) hs).mono ?_
    intro r t ht
    cases r with
    | error e => exact hnothing ht
    | ok u =>
      show Act.Safe _ _ _ _ _ t
      rw [Act.safe_bind]
      refine (safe_of_quiet uses_currentBranch (drawn_stable root) ht).mono ?_
      intro r t ht
      cases r with
      | error e => exact hnothing ht
      | ok base => exact safe_worktreeAdd ht

/-- The two commands that read the new workspace. -/
theorem safe_captureWorkspaceDiff {root name : String} (hs : Within i .busy (Held i root name) s) :
    SafeIn reliable i (captureWorkspaceDiff root)
      (fun x => Within i .busy (Act.outcome (fun _ => Held i root name)
        (fun _ => Failed reliable i root) x)) s := by
  have hfailed : ∀ {α : Type} {x : Except RuntimeError α} {t : Repository ι},
      Within i .busy (fun u => Held i root name u ∧ ((∃ e, x = .error e) → reliable = false)) t →
      (∃ e, x = .error e) → Within i .busy (Failed reliable i root) t := by
    intro α x t ht he
    refine ⟨ht.sound, ht.phase, ht.holds.1.drawn, fun hreliable => ?_⟩
    exact absurd ((ht.holds.2 he).symm.trans hreliable) Bool.false_ne_true
  unfold captureWorkspaceDiff
  rw [SafeIn, Act.safe_bind]
  refine (safe_capture hs (.inl rfl)).mono ?_
  intro r t ht
  cases r with
  | error e => exact hfailed ht ⟨e, rfl⟩
  | ok status =>
    show Act.Safe _ _ _ _ _ t
    rw [Act.safe_bind]
    refine (safe_capture ⟨ht.sound, ht.phase, ht.holds.1⟩ (.inr rfl)).mono ?_
    intro r t ht
    cases r with
    | error e => exact hfailed ht ⟨e, rfl⟩
    | ok diff => exact ⟨ht.sound, ht.phase, ht.holds.1⟩

/-- **`addWorktree`**: from a directory to a workspace, or, where no late command fails, back to it. -/
theorem safe_addWorktree (manager : GitWorktreeWorkspaceManager) {root : String} (name : String)
    (hs : Within i .busy (Drawn i root) s) :
    SafeIn reliable i (manager.addWorktree root name)
      (fun x => Within i .busy (Act.outcome (Allocated i) (fun _ => Failed reliable i root) x)) s := by
  unfold GitWorktreeWorkspaceManager.addWorktree
  rw [SafeIn, Act.safe_bind]
  refine (safe_registration manager hs).mono ?_
  intro r t ht
  cases r with
  | error e => exact ht
  | ok u =>
    show Act.Safe _ _ _ _ _ t
    rw [Act.safe_bind]
    refine (safe_checkoutNewBranch name ht).mono ?_
    intro r t ht
    cases r with
    | error e => exact ht
    | ok u =>
      show Act.Safe _ _ _ _ _ t
      rw [Act.safe_bind]
      refine (safe_captureWorkspaceDiff ht).mono ?_
      intro r t ht
      cases r with
      | error e => exact ht
      | ok diff => exact ⟨ht.sound, ht.phase, name, rfl, ht.holds⟩

/-- **`allocate`**: from nothing to a workspace of its own, or, where no late command fails, to nothing. -/
theorem safe_allocate (manager : GitWorktreeWorkspaceManager) (input : WorkspaceAllocationInput)
    (hs : Within i .busy (Clear i) s) :
    SafeIn reliable i (manager.allocate input)
      (fun x => Within i .busy
        (Act.outcome (Allocated i) (fun _ u => reliable = true → Clear i u) x)) s := by
  have hscope : ∀ {β : Type} (scope : Except RuntimeError String) (f : String → Call β)
      (Q : Except RuntimeError β → Repository ι → Prop), (∀ e, Q (.error e) s) →
      (∀ a, SafeIn reliable i (f a) Q s) → SafeIn reliable i (Act.ofExcept scope >>= f) Q s := by
    intro β scope f Q herror hok
    rw [SafeIn, Act.safe_bind]
    cases scope with
    | error e => exact herror e
    | ok a => exact hok a
  have hnothing : ∀ e : RuntimeError, Within i .busy
      (Act.outcome (Allocated i) (fun _ u => reliable = true → Clear i u) (.error e)) s :=
    fun _ => ⟨hs.sound, hs.phase, fun _ => hs.holds⟩
  unfold GitWorktreeWorkspaceManager.allocate
  refine hscope _ _ _ hnothing fun tenant => ?_
  refine hscope _ _ _ hnothing fun project => ?_
  refine hscope _ _ _ hnothing fun run => ?_
  rw [SafeIn, Act.safe_bind]
  refine (safe_mkdtemp _ hs).mono ?_
  intro r t ht
  cases r with
  | error e => exact ⟨ht.sound, ht.phase, fun _ => ht.holds.2⟩
  | ok root =>
    have hdrawn : Within i .busy (Drawn i root) t := ⟨ht.sound, ht.phase, ht.holds.1 root rfl⟩
    show Act.Safe _ _ _ _ _ t
    rw [Act.safe_bind]
    refine (safe_of_quiet (uses_request (o := .dateNow) trivial) (drawn_stable root) hdrawn).mono ?_
    intro r t ht
    cases r with
    | error e => exact ⟨ht.sound, ht.phase, fun _ => ht.holds.toClear⟩
    | ok timestamp =>
      show Act.Safe _ _ _ (Act.catching _ _) _ t
      rw [Act.safe_catching]
      refine (safe_addWorktree manager _ ht).mono ?_
      intro r t ht
      cases r with
      | ok workspace => exact ht
      | error e =>
        show Act.Safe _ _ _ _ _ t
        rw [Act.safe_bind, Act.safe_ignoring]
        refine (safe_rm (failed_stable root) (fun s hs => hs.drawn) ht
          (Q := fun u => reliable = true → Clear i u) ?_).mono ?_
        · exact fun s hs hreliable => ⟨(hs.clear hreliable).1, (hs.clear hreliable).2⟩
        · exact fun r t ht => ⟨ht.sound, ht.phase, ht.holds.2⟩

/-- **`cleanup`**: from a workspace of its own to nothing. -/
theorem safe_cleanup (manager : GitWorktreeWorkspaceManager) {root name : String}
    (hs : Within i .busy (Held i root name) s) :
    SafeIn reliable i (manager.cleanup root name) (fun _ => Within i .busy (Clear i)) s := by
  refine safe_runExclusive (held_stable root name) (fun _ => clear_stable) ?_ hs
  intro s hs
  rw [SafeIn, Act.safe_finallyDo]
  refine (safe_worktreeRemove hs).mono ?_
  intro r t ht
  show Act.Safe _ _ _ _ _ t
  rw [Act.safe_bind]
  refine (safe_rm (Q := Removed i root name) (removed_stable root name) (fun s hs => hs.drawn) ht ?_).mono ?_
  · exact fun s hs => ⟨hs.drawn, hs.noWorktree, hs.onlyBranch⟩
  · intro r' t ht
    obtain rfl := ht.holds.1
    show Act.Safe _ _ _ _ _ t
    rw [Act.safe_ignoring]
    refine (safe_branchDelete ⟨ht.sound, ht.phase, ht.holds.2⟩).mono ?_
    exact fun _ u hu => hu

/-- A call comes in, or settles. -/
theorem safe_setPhase {o : Op} {before after : Phase} {P : Repository ι → Prop} (hP : Stable i P)
    (hs : Within i before P s)
    (hserve : ∀ c s x t, serve i c o s = some (x, t) → (∃ a, x = .ok a) ∧ t = s.setPhase i after)
    (hphase : ∀ s, P s → P (s.setPhase i after))
    (hbooked : ∀ u, Within i after P u → Booked reliable i u) :
    SafeIn reliable i (request o) (fun x u => (∃ a, x = .ok a) ∧ Within i after P u) s := by
  refine Act.safe_ask (P := Within i before P) hs (fun s t hs h => hs.of_rely hP h) ?_
  intro t x u ht he
  obtain ⟨c, -, hmove⟩ := Server.eff_only.mp he
  have hsound := sound_of_serve ht.sound hmove
  obtain ⟨hx, rfl⟩ := hserve c t x u hmove
  have hafter : (t.setPhase i after).phase i = after := by
    show Function.update t.phase i after i = after
    exact Function.update_self i after t.phase
  have hwithin : Within i after P (t.setPhase i after) := ⟨hsound, hafter, hphase t ht.holds⟩
  exact ⟨fun _ => ⟨hsound, fun j hj => kept_setPhase hj after, hbooked _ hwithin⟩, hx, hwithin⟩

omit [DecidableEq ι] in
/-- Clear, and held, are about the repository. -/
theorem clear_setPhase [DecidableEq ι] {phase : Phase} (s : Repository ι) (h : Clear i s) :
    Clear i (s.setPhase i phase) :=
  ⟨h.noWorktree, h.noBranch⟩

theorem allocated_setPhase {workspace : ManagedWorkspace} {phase : Phase} (s : Repository ι)
    (h : Allocated i workspace s) : Allocated i workspace (s.setPhase i phase) := by
  obtain ⟨name, hname, hheld⟩ := h
  exact ⟨name, hname, hheld.drawn, hheld.dir, hheld.worktree, hheld.only, hheld.branch,
    hheld.onlyBranch, hheld.alone, hheld.head⟩

/-- **A session** keeps what is promised of it, and leaves the others alone. -/
theorem safe_session (manager : GitWorktreeWorkspaceManager) (input : WorkspaceAllocationInput)
    (hs : Within i .notCalled (Clear i) s) :
    SafeIn reliable i (manager.session input) (fun _ _ => True) s := by
  have hserve : ∀ {o : Op} {after : Phase},
      (o = .called ∧ after = .busy ∨ o = .settled none ∧ after = .finished ∨
        (∃ workspace, o = .settled (some workspace) ∧ after = .inUse workspace) ∨
        o = .cleanupCalled ∧ after = .busy ∨ o = .cleaned ∧ after = .finished) →
      ∀ c (s : Repository ι) x t, serve i c o s = some (x, t) →
        (∃ a, x = .ok a) ∧ t = s.setPhase i after := by
    intro o after ho c s x t h
    rcases ho with ⟨rfl, rfl⟩ | ⟨rfl, rfl⟩ | ⟨workspace, rfl, rfl⟩ | ⟨rfl, rfl⟩ | ⟨rfl, rfl⟩ <;>
      (obtain ⟨rfl, rfl⟩ := Prod.mk.inj (Option.some.inj h); exact ⟨⟨_, rfl⟩, rfl⟩)
  have hbusy : ∀ {P : Repository ι → Prop} u, Within i .busy P u → Booked reliable i u := by
    intro P u hu
    unfold Booked
    rw [hu.phase]
    trivial
  have hfinished : ∀ u, Within i .finished (fun u => reliable = true → Clear i u) u →
      Booked reliable i u := by
    intro u hu
    unfold Booked
    rw [hu.phase]
    exact hu.holds
  have hclear : Stable i fun u => reliable = true → Clear i u :=
    fun s t h hs hreliable => clear_stable s t h (hs hreliable)
  unfold GitWorktreeWorkspaceManager.session
  rw [SafeIn, Act.safe_bind]
  refine (safe_setPhase clear_stable hs (hserve (.inl ⟨rfl, rfl⟩)) clear_setPhase hbusy).mono ?_
  rintro r t ⟨⟨a, rfl⟩, ht⟩
  show Act.Safe _ _ _ _ _ t
  rw [Act.safe_bind, Act.safe_attempt]
  refine (safe_allocate manager input ht).mono ?_
  intro r t ht
  cases r with
  | error e =>
    refine (safe_setPhase hclear ht (hserve (.inr (.inl ⟨rfl, rfl⟩))) ?_ hfinished).mono ?_
    · exact fun s hs hreliable => clear_setPhase s (hs hreliable)
    · exact fun _ _ _ => trivial
  | ok workspace =>
    show Act.Safe _ _ _ _ _ t
    rw [Act.safe_bind]
    refine (safe_setPhase (allocated_stable workspace) ht
      (hserve (.inr (.inr (.inl ⟨workspace, rfl, rfl⟩)))) allocated_setPhase ?_).mono ?_
    · intro u hu
      unfold Booked
      rw [hu.phase]
      exact hu.holds
    rintro r t ⟨⟨a, rfl⟩, ht⟩
    show Act.Safe _ _ _ _ _ t
    rw [Act.safe_bind]
    refine (safe_setPhase (allocated_stable workspace) ht
      (hserve (.inr (.inr (.inr (.inl ⟨rfl, rfl⟩))))) allocated_setPhase hbusy).mono ?_
    rintro r t ⟨⟨a, rfl⟩, ht⟩
    obtain ⟨name, hname, hheld⟩ := ht.holds
    show Act.Safe _ _ _ _ _ t
    rw [Act.safe_bind, Act.safe_ignoring, hname]
    refine (safe_cleanup manager ⟨ht.sound, ht.phase, hheld⟩).mono ?_
    intro r t ht
    refine (safe_setPhase hclear ⟨ht.sound, ht.phase, fun _ => ht.holds⟩
      (hserve (.inr (.inr (.inr (.inr ⟨rfl, rfl⟩))))) ?_ hfinished).mono ?_
    · exact fun s hs hreliable => clear_setPhase s (hs hreliable)
    · exact fun _ _ _ => trivial

end Session

/-! ### The bookkeeping -/

/-- A repository before the first call: what is checked out exists, and nothing belongs to a session. -/
structure Fresh (s : Repository ι) : Prop where
  sound : s.Sound
  notCalled : ∀ i, s.phase i = .notCalled
  clear : ∀ i, Clear i s

/-- The registration and the branch of a workspace. -/
structure IsRegistered (i : ι) (workspace : ManagedWorkspace) (s : Repository ι) : Prop where
  worktree : s.worktrees.get? workspace.rootPath =
    some { branch := workspace.branchName, owner := some i }
  branch : ∃ name b, workspace.branchName = some name ∧ s.branches.get? name = some b ∧
    b.owner = some i

/-- **The bookkeeping is exact**: the registrations and the branches that calls have created are those of
the workspaces in use. -/
structure Exact (s : Repository ι) : Prop where
  worktrees : ∀ root i, (∃ w, s.worktrees.get? root = some w ∧ w.owner = some i) ↔
    ∃ workspace, s.phase i = .inUse workspace ∧ workspace.rootPath = root
  branches : ∀ name i, (∃ b, s.branches.get? name = some b ∧ b.owner = some i) ↔
    ∃ workspace, s.phase i = .inUse workspace ∧ workspace.branchName = some name

variable {managers : ι → GitWorktreeWorkspaceManager} {inputs : ι → WorkspaceAllocationInput}
  {moves : List (Move ι Choice Empty)}
  {p : Pool ι Op (fun o => Except RuntimeError o.Res) (Except RuntimeError Unit) (Repository ι)}

/-- Every run keeps the books of all sessions. -/
theorem booked_run {reliable : Bool} (fresh : Fresh s)
    (run : (start managers inputs s).run (serverOf ι reliable) moves = some p) :
    ∀ i, Booked reliable i p.state := by
  have hsafe : (start managers inputs s).Safe (serverOf ι reliable) Rely (Guar reliable) := fun i =>
    safe_session (managers i) (inputs i) ⟨fresh.sound, fresh.notCalled i, fresh.clear i⟩
  have hstart : ∀ i, Booked reliable i s := by
    intro i
    unfold Booked
    rw [fresh.notCalled i]
    exact fresh.clear i
  have hinvariant : p.state.Sound ∧ ∀ i, Booked reliable i p.state := by
    refine Pool.invariant_of_safe (I := fun s : Repository ι => s.Sound ∧ ∀ i, Booked reliable i s)
      ?_ ?_ ?_ ?_ hsafe ⟨fresh.sound, hstart⟩ run
    · intro i j hij s t hguar hsound
      obtain ⟨ht, hkept, -⟩ := hguar hsound
      exact ⟨ht, hkept j (Ne.symm hij)⟩
    · rintro j s t ⟨e, -⟩
      exact e.elim
    · rintro i s t ⟨hsound, hbooked⟩ hguar
      obtain ⟨ht, hkept, hown⟩ := hguar hsound
      refine ⟨ht, fun j => ?_⟩
      by_cases hj : j = i
      · exact hj ▸ hown
      · exact booked_stable reliable s t (hkept j hj) (hbooked j)
    · rintro s t _ ⟨e, -⟩
      exact e.elim
  exact hinvariant.2

omit [DecidableEq ι] in
theorem Booked.exact {reliable : Bool} (hreliable : reliable = true)
    (hbooked : ∀ i, Booked reliable i s) (hidle : ∀ i, s.phase i ≠ .busy) : Exact s := by
  -- a session without a workspace has nothing, and one with a workspace just what belongs to it
  have hcases : ∀ i, Clear i s ∧ (∀ workspace, s.phase i ≠ .inUse workspace) ∨
      ∃ workspace name, s.phase i = .inUse workspace ∧ workspace.branchName = some name ∧
        Held i workspace.rootPath name s := by
    intro i
    have hi := hbooked i
    unfold Booked at hi
    cases hphase : s.phase i with
    | notCalled =>
      rw [hphase] at hi
      exact .inl ⟨hi, nofun⟩
    | busy => exact absurd hphase (hidle i)
    | inUse workspace =>
      rw [hphase] at hi
      obtain ⟨name, hname, hheld⟩ := hi
      exact .inr ⟨workspace, name, rfl, hname, hheld⟩
    | finished =>
      rw [hphase] at hi
      exact .inl ⟨hi hreliable, nofun⟩
  constructor
  · intro root i
    rcases hcases i with ⟨hclear, hnone⟩ | ⟨workspace, name, hphase, hname, hheld⟩
    · refine ⟨?_, ?_⟩
      · rintro ⟨w, hw, howner⟩
        exact absurd howner (hclear.noWorktree root w hw)
      · rintro ⟨workspace, hphase, -⟩
        exact absurd hphase (hnone workspace)
    · refine ⟨?_, ?_⟩
      · rintro ⟨w, hw, howner⟩
        exact ⟨workspace, hphase, (hheld.only root w hw howner).symm⟩
      · rintro ⟨workspace', hphase', rfl⟩
        obtain rfl := Phase.inUse.inj (hphase.symm.trans hphase')
        exact ⟨_, hheld.worktree, rfl⟩
  · intro name' i
    rcases hcases i with ⟨hclear, hnone⟩ | ⟨workspace, name, hphase, hname, hheld⟩
    · refine ⟨?_, ?_⟩
      · rintro ⟨b, hb, howner⟩
        exact absurd howner (hclear.noBranch name' b hb)
      · rintro ⟨workspace, hphase, -⟩
        exact absurd hphase (hnone workspace)
    · refine ⟨?_, ?_⟩
      · rintro ⟨b, hb, howner⟩
        obtain rfl := hheld.onlyBranch name' b hb howner
        exact ⟨workspace, hphase, hname⟩
      · rintro ⟨workspace', hphase', hname'⟩
        obtain rfl := Phase.inUse.inj (hphase.symm.trans hphase')
        obtain rfl := Option.some.inj (hname.symm.trans hname')
        exact hheld.branch

/-- **Worktree bookkeeping.** Whatever fails, and in any order, a workspace in use keeps its registration
and its branch. Where no command of an `allocate` fails once `git worktree add` has registered the worktree,
the bookkeeping is exact whenever no call is in progress, and a failed `allocate` has left nothing at any
time. -/
theorem bookkeeping_of_run (fresh : Fresh s)
    (run : (start managers inputs s).run (server ι) moves = some p) :
    (∀ i workspace, p.state.phase i = .inUse workspace → IsRegistered i workspace p.state) ∧
    (Pool.Along (server ι) (Pool.Asks lateSucceeds) (start managers inputs s) moves →
      ((∀ i, p.state.phase i ≠ .busy) → Exact p.state) ∧
      ∀ i, p.state.phase i = .finished → Clear i p.state) := by
  constructor
  · intro i workspace hphase
    have hall : Pool.Along (server ι) (Pool.Asks (allows false)) (start managers inputs s) moves := by
      rintro before m after q - -
      cases m with
      | client i c => exact fun o k _ => rfl
      | drift e => trivial
    have hbooked := booked_run fresh (Pool.run_only hall run) i
    unfold Booked at hbooked
    rw [hphase] at hbooked
    obtain ⟨name, hname, hheld⟩ := hbooked
    obtain ⟨b, hb, howner⟩ := hheld.branch
    exact ⟨hname ▸ hheld.worktree, name, b, hname, hb, howner⟩
  · intro hlate
    have hall : Pool.Along (server ι) (Pool.Asks (allows true)) (start managers inputs s) moves := by
      intro before m after q hmoves hbefore
      have hm := hlate before m after q hmoves hbefore
      cases m with
      | client i c => exact fun o k hthread => hm o k hthread
      | drift e => trivial
    have hbooked := booked_run fresh (Pool.run_only hall run)
    refine ⟨fun hidle => Booked.exact rfl hbooked hidle, fun i hphase => ?_⟩
    have hi := hbooked i
    unfold Booked at hi
    rw [hphase] at hi
    exact hi rfl

/-! ### Sessions on one repository -/

/-- A repository with one branch, which is checked out. -/
def mainOnly : Repository Bool where
  head := some "main"
  worktrees := ∅
  branches := (∅ : Dict String (Branch Bool)).set "main" { createdAt := 1, owner := none }
  dirs := []
  drawn := ∅
  holder _ := none
  phase _ := .notCalled

def sampleManager : GitWorktreeWorkspaceManager where
  repoRoot := "/repo"
  branchTtlHours := 24

def sampleInput : WorkspaceAllocationInput where
  runId := "r1"
  tenantId := "t"
  projectId := "p"

/-- The moves of `allocate` up to its `git worktree add`, when no other session is in the mutex. -/
def untilAdded (i : Bool) (suffix : String) (now : Nat) (add : Choice := {}) :
    List (Move Bool Choice Empty) :=
  [{}, { suffix }, { now }, {}, {}, { now }, {}, {}, add, {}].map fun choice => .client i choice

/-- One session allocates a workspace; the other one does and cleans up. -/
def allocateTwice : List (Move Bool Choice Empty) :=
  untilAdded true "a" 1000 ++ untilAdded false "b" 2000 ++
    [.client false {}, .client true {}, .client false {}, .client false {}, .client false {},
      .client true {}, .client true {}, .client true {}] ++
    List.replicate 7 (.client false {})

theorem fresh_mainOnly : Fresh mainOnly where
  sound := by
    rintro name (hhead | ⟨root, w, hw, -⟩)
    · obtain rfl := Option.some.inj hhead
      decide
    · cases hw
  notCalled _ := rfl
  clear _ := by
    refine ⟨fun root w hw => ?_, fun name b hb howner => ?_⟩
    · cases hw
    · have hb : ((∅ : Dict String (Branch Bool)).set "main" _).get? name = some b := hb
      rw [Dict.get?_set] at hb
      split_ifs at hb
      · obtain rfl := Option.some.inj hb
        cases howner
      · cases hb

/-- The first workspace is in use, and the bookkeeping is exact. -/
theorem bookkeeping_of_run_twice :
    ∃ p, (start (fun _ => sampleManager) (fun _ => sampleInput) mainOnly).run (server Bool)
        allocateTwice = some p ∧ Exact p.state ∧
      p.state.worktrees.keys = ["ai-orchestrator-t-p-r1-a"] := by
  have hrun : ((start (fun _ => sampleManager) (fun _ => sampleInput) mainOnly).run (server Bool)
      allocateTwice).map (fun p =>
        ([true, false].all fun i => !(p.state.phase i).isBusy, p.state.worktrees.keys)) =
      some (true, ["ai-orchestrator-t-p-r1-a"]) := by
    decide +kernel
  have hall : (start (fun _ => sampleManager) (fun _ => sampleInput) mainOnly).checkAll (server Bool)
      (Pool.allowsMove lateSucceeds) allocateTwice = true := by
    decide +kernel
  have halong := Pool.along_of_checkAll (fun _ _ => Pool.asks_of_allowsMove) hall
  obtain ⟨p, hp, hresult⟩ := Option.map_eq_some_iff.mp hrun
  obtain ⟨hidle, hkeys⟩ := Prod.mk.inj hresult
  refine ⟨p, hp, ?_, hkeys⟩
  refine ((bookkeeping_of_run fresh_mainOnly hp).2 halong).1 fun i hbusy => ?_
  have hi := List.all_eq_true.mp hidle i (by cases i <;> decide)
  rw [hbusy] at hi
  cases hi

/-- `git checkout -b` fails, and `allocate` with it. -/
def checkoutFails : List (Move Bool Choice Empty) :=
  untilAdded true "a" 1000 ++ [.client true { fails := true }, .client true {}, .client true {}]

/-- `git worktree add` fails on a hook when the worktree is registered, and `allocate` with it. -/
def hookFails : List (Move Bool Choice Empty) :=
  untilAdded true "a" 1000 { fails := true, late := true } ++ [.client true {}, .client true {}]

/-- No call of the sample is in progress and none holds a workspace, but the worktree that the first
one has added is registered. -/
def leavesRegistration (moves : List (Move Bool Choice Empty)) : Bool :=
  ((start (fun _ => sampleManager) (fun _ => sampleInput) mainOnly).run (server Bool) moves).any
    fun p =>
      ([true, false].all fun i => !(p.state.phase i).isBusy && !(p.state.phase i).isInUse) &&
        decide (p.state.worktrees.get? "ai-orchestrator-t-p-r1-a" =
          some { branch := none, owner := some true })

/-- Such a run is not exact. -/
theorem not_exact_of_leavesRegistration {moves : List (Move Bool Choice Empty)}
    (h : leavesRegistration moves = true) :
    ∃ p, (start (fun _ => sampleManager) (fun _ => sampleInput) mainOnly).run (server Bool) moves =
      some p ∧ (∀ i, p.state.phase i ≠ .busy) ∧ ¬ Exact p.state := by
  obtain ⟨p, hp, hcheck⟩ := Option.any_eq_true _ _ |>.mp h
  rw [Bool.and_eq_true, decide_eq_true_eq] at hcheck
  obtain ⟨hphases, hleft⟩ := hcheck
  have hphase : ∀ i, (p.state.phase i).isBusy = false ∧ (p.state.phase i).isInUse = false := by
    intro i
    have hi := List.all_eq_true.mp hphases i (by cases i <;> decide)
    rw [Bool.and_eq_true, Bool.not_eq_true', Bool.not_eq_true'] at hi
    exact hi
  refine ⟨p, hp, fun i hbusy => ?_, fun hexact => ?_⟩
  · have hi := (hphase i).1
    rw [hbusy] at hi
    cases hi
  · obtain ⟨workspace, hworkspace, -⟩ := (hexact.worktrees _ true).mp ⟨_, hleft, rfl⟩
    have hi := (hphase true).2
    rw [hworkspace] at hi
    cases hi

/-- **A registration that stays** when `allocate` has failed, at its `git checkout -b` or at the hook
of its `git worktree add`. -/
theorem checkoutFails_not_exact :
    (∃ p, (start (fun _ => sampleManager) (fun _ => sampleInput) mainOnly).run (server Bool)
        checkoutFails = some p ∧ (∀ i, p.state.phase i ≠ .busy) ∧ ¬ Exact p.state) ∧
      ∃ p, (start (fun _ => sampleManager) (fun _ => sampleInput) mainOnly).run (server Bool)
        hookFails = some p ∧ (∀ i, p.state.phase i ≠ .busy) ∧ ¬ Exact p.state := by
  have hleft : leavesRegistration checkoutFails = true ∧ leavesRegistration hookFails = true := by
    decide +kernel
  exact ⟨not_exact_of_leavesRegistration hleft.1, not_exact_of_leavesRegistration hleft.2⟩

end Worktrees

end AiOrchestrator
