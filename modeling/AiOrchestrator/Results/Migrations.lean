import AiOrchestrator.State.PostgresMigrations

/-!
# Migrations, invocation by invocation

The check accepts just the compatible histories (`assertCompatible_iff`). An invocation is followed query by
query with the invariant that the first of the missing migrations are executed (`Progress`), which every
query has to leave; a crash is the end of a path at any point. `applyPendingMigrations_exact` is the promise
of the runner, over all histories, points of crash and sequences of invocations.
-/

namespace AiOrchestrator

namespace PostgresMigrationRunner

/-! ### Declared migrations -/

/-- What `validatePostgresMigrations` has checked of the order. -/
structure Declared (migrations : List PostgresMigration) : Prop where
  ascending : migrations.Pairwise (·.id < ·.id)
  positive : ∀ m ∈ migrations, 0 < m.id

theorem ascending_of_validate {ids : List Int} {names : List String} {previousId last : Int}
    {migrations : List PostgresMigration}
    (h : validateMigrations ids names previousId migrations = .ok last) :
    migrations.Pairwise (·.id < ·.id) ∧ ∀ m ∈ migrations, previousId < m.id ∧ 0 < m.id := by
  induction migrations generalizing ids names previousId with
  | nil => exact ⟨List.Pairwise.nil, nofun⟩
  | cons migration rest ih =>
    rw [validateMigrations] at h
    split_ifs at h with hpositive hascending hid hname hstatements
    obtain ⟨hrest, hall⟩ := ih h
    refine ⟨List.pairwise_cons.mpr ⟨fun m hm => (hall m hm).1, hrest⟩, ?_⟩
    intro m hm
    rcases List.mem_cons.mp hm with rfl | hm
    · exact ⟨not_le.mp hascending, not_le.mp hpositive⟩
    · exact ⟨(not_le.mp hascending).trans (hall m hm).1, (hall m hm).2⟩

theorem declared (runner : PostgresMigrationRunner) : Declared runner.migrations := by
  have hvalid := runner.valid
  unfold validatePostgresMigrations at hvalid
  cases hlast : validateMigrations [] [] 0 runner.migrations with
  | error e =>
    rw [hlast] at hvalid
    cases hvalid
  | ok last =>
    obtain ⟨hascending, hall⟩ := ascending_of_validate hlast
    exact ⟨hascending, fun m hm => (hall m hm).2⟩

variable {migrations : List PostgresMigration}

theorem Declared.nodup (h : Declared migrations) : (migrations.map (·.id)).Nodup :=
  List.pairwise_map.mpr (h.ascending.imp fun hlt => ne_of_lt hlt)

theorem Declared.eq_of_id (h : Declared migrations) {m m' : PostgresMigration} (hm : m ∈ migrations)
    (hm' : m' ∈ migrations) (hid : m.id = m'.id) : m = m' :=
  List.inj_on_of_nodup_map h.nodup hm hm' hid

theorem Declared.known_eq_some_iff (h : Declared migrations) {id : Int} {m : PostgresMigration} :
    known migrations id = some m ↔ m ∈ migrations ∧ m.id = id := by
  have hmem : ∀ {m'}, m' ∈ migrations.filter (·.id = id) ↔ m' ∈ migrations ∧ m'.id = id := by
    intro m'
    rw [List.mem_filter, decide_eq_true_iff]
  unfold known
  constructor
  · exact fun hm => hmem.mp (List.mem_of_getLast? hm)
  · intro hm
    have hne : migrations.filter (·.id = id) ≠ [] := List.ne_nil_of_mem (hmem.mpr hm)
    rw [List.getLast?_eq_some_getLast hne]
    obtain ⟨hlast, hid⟩ := hmem.mp (List.getLast_mem hne)
    exact congrArg some (h.eq_of_id hlast hm.1 (hid.trans hm.2.symm))

/-! ### Compatible histories -/

/-- **A compatible history**: no id twice, no unknown migration, no mismatch, and no gap. -/
structure Compatible (migrations : List PostgresMigration) (history : List PostgresAppliedMigration) :
    Prop where
  distinct : (history.map (·.id)).Nodup
  known : ∀ applied ∈ history, ∃ m ∈ migrations, m.id = applied.id
  same : ∀ applied ∈ history, ∀ m ∈ migrations, m.id = applied.id →
    m.name = applied.name ∧ m.checksum = applied.checksum
  contiguous : ∀ applied ∈ history, ∀ m ∈ migrations, m.id < applied.id →
    m.id ∈ history.map (·.id)

theorem Compatible.perm {history rows : List PostgresAppliedMigration}
    (h : Compatible migrations history) (hrows : rows.Perm history) : Compatible migrations rows where
  distinct := (hrows.map (·.id)).nodup_iff.mpr h.distinct
  known applied happlied := h.known applied (hrows.mem_iff.mp happlied)
  same applied happlied := h.same applied (hrows.mem_iff.mp happlied)
  contiguous applied happlied m hm hlt :=
    (hrows.map (·.id)).mem_iff.mpr (h.contiguous applied (hrows.mem_iff.mp happlied) m hm hlt)

theorem checkRows_eq_ok_iff {appliedIds : List Int} {rows : List PostgresAppliedMigration} :
    checkRows migrations appliedIds rows = .ok () ↔
      (∀ applied ∈ rows, applied.id ∉ appliedIds) ∧ (rows.map (·.id)).Nodup ∧
        ∀ applied ∈ rows, ∃ m, known migrations applied.id = some m ∧ m.name = applied.name ∧
          m.checksum = applied.checksum := by
  induction rows generalizing appliedIds with
  | nil => exact ⟨fun _ => ⟨nofun, List.nodup_nil, nofun⟩, fun _ => rfl⟩
  | cons applied rest ih =>
    rw [checkRows]
    split_ifs with hseen
    · refine ⟨nofun, fun h => ?_⟩
      exact absurd hseen (h.1 applied List.mem_cons_self)
    · cases hknown : known migrations applied.id with
      | none =>
        refine ⟨nofun, fun h => ?_⟩
        obtain ⟨m, hm, -⟩ := h.2.2 applied List.mem_cons_self
        rw [hknown] at hm
        cases hm
      | some m =>
        dsimp only
        rw [List.map_cons, List.nodup_cons, List.forall_mem_cons, List.forall_mem_cons]
        split_ifs with hdiffers
        · refine ⟨nofun, fun ⟨_, _, ⟨m', hm', hname, hchecksum⟩, _⟩ => ?_⟩
          obtain rfl := Option.some.inj (hknown.symm.trans hm')
          simp [hname, hchecksum] at hdiffers
        · simp only [Bool.or_eq_true, decide_eq_true_eq, not_or, not_not] at hdiffers
          rw [ih]
          constructor
          · rintro ⟨hnew, hdistinct, hsame⟩
            refine ⟨⟨hseen, fun a ha hmem => hnew a ha (List.mem_cons_of_mem _ hmem)⟩, ⟨?_, hdistinct⟩,
              ⟨m, hknown, hdiffers⟩, hsame⟩
            intro hmem
            obtain ⟨a, ha, hid⟩ := List.mem_map.mp hmem
            exact hnew a ha (List.mem_cons.mpr (.inl hid))
          · rintro ⟨⟨_, hnew⟩, ⟨hnot, hdistinct⟩, _, hsame⟩
            refine ⟨fun a ha hmem => ?_, hdistinct, hsame⟩
            rcases List.mem_cons.mp hmem with hid | hmem
            · exact hnot (List.mem_map.mpr ⟨a, ha, hid⟩)
            · exact hnew a ha hmem

/-- The latest version of a history in order is its greatest id. -/
theorem le_latestAppliedVersion {rows : List PostgresAppliedMigration}
    (hsorted : rows.Pairwise (·.id ≤ ·.id)) {applied : PostgresAppliedMigration} (h : applied ∈ rows) :
    applied.id ≤ latestAppliedVersion rows := by
  obtain ⟨rest, last, rfl⟩ := List.eq_nil_or_concat rows |>.resolve_left (List.ne_nil_of_mem h)
  rw [latestAppliedVersion, List.concat_eq_append, List.getLast?_append_of_ne_nil _ (List.cons_ne_nil _ _)]
  rw [List.concat_eq_append] at h hsorted
  rcases List.mem_append.mp h with hrest | hlast
  · exact (List.pairwise_append.mp hsorted).2.2 applied hrest last (List.mem_singleton.mpr rfl)
  · rw [List.mem_singleton.mp hlast]
    exact le_refl _

/-- **The check** of a history in order accepts just the compatible ones. -/
theorem assertCompatible_iff (hdeclared : Declared migrations) {rows : List PostgresAppliedMigration}
    (hsorted : rows.Pairwise (·.id ≤ ·.id)) :
    assertAppliedMigrationsAreCompatible migrations rows = .ok () ↔ Compatible migrations rows := by
  have hgap : (migrations.filter fun m =>
        m.id < latestAppliedVersion rows && m.id ∉ rows.map (·.id)) = [] ↔
      ∀ applied ∈ rows, ∀ m ∈ migrations, m.id < applied.id → m.id ∈ rows.map (·.id) := by
    rw [List.filter_eq_nil_iff]
    simp only [Bool.and_eq_true, decide_eq_true_eq, not_and, not_not]
    constructor
    · intro h applied happlied m hm hlt
      exact h m hm (hlt.trans_le (le_latestAppliedVersion hsorted happlied))
    · intro h m hm hlt
      cases hlast : rows.getLast? with
      | none =>
        rw [latestAppliedVersion, hlast] at hlt
        exact absurd hlt (not_lt.mpr (hdeclared.positive m hm).le)
      | some last =>
        rw [latestAppliedVersion, hlast] at hlt
        exact h last (List.mem_of_getLast? hlast) m hm hlt
  have hchecked : assertAppliedMigrationsAreCompatible migrations rows = .ok () ↔
      checkRows migrations [] rows = .ok () ∧ (migrations.filter fun m =>
        m.id < latestAppliedVersion rows && m.id ∉ rows.map (·.id)) = [] := by
    unfold assertAppliedMigrationsAreCompatible
    cases checkRows migrations [] rows with
    | error e => exact ⟨nofun, nofun⟩
    | ok u =>
      show (if _ then _ else _) = _ ↔ _
      split_ifs with hmissing
      · exact ⟨nofun, fun h => absurd h.2 hmissing⟩
      · exact ⟨fun _ => ⟨rfl, not_not.mp hmissing⟩, fun _ => rfl⟩
  rw [hchecked, hgap, checkRows_eq_ok_iff]
  simp only [hdeclared.known_eq_some_iff]
  constructor
  · rintro ⟨⟨-, hdistinct, hknown⟩, hcontiguous⟩
    refine ⟨hdistinct, ?_, ?_, hcontiguous⟩
    · intro applied happlied
      obtain ⟨m, ⟨hm, hid⟩, -⟩ := hknown applied happlied
      exact ⟨m, hm, hid⟩
    · intro applied happlied m hm hid
      obtain ⟨m', ⟨hm', hid'⟩, hsame⟩ := hknown applied happlied
      rw [hdeclared.eq_of_id hm hm' (hid.trans hid'.symm)]
      exact hsame
  · intro h
    refine ⟨⟨fun _ _ => List.not_mem_nil, h.distinct, ?_⟩, h.contiguous⟩
    intro applied happlied
    obtain ⟨m, hm, hid⟩ := h.known applied happlied
    exact ⟨m, ⟨hm, hid⟩, h.same applied happlied m hm hid⟩

/-! ### What an invocation has done -/

/-- The transaction of a migration. -/
def Transaction.Applies (tx : Transaction) (m : PostgresMigration) : Prop :=
  tx.statements = m.statements ∧ ∃ executionMs appliedAt, tx.rows = [row m executionMs appliedAt]

/-- **The migrations `done` were executed**, in this order and each in one transaction with its row, between
`s` and `t`. -/
def Applied (s : Database) (done : List PostgresMigration) (t : Database) : Prop :=
  ∃ txs, List.Forall₂ Transaction.Applies txs done ∧ t.committed = s.committed ++ txs ∧
    t.history = s.history ++ txs.flatMap (·.rows)

/-- The migrations that a history does not have, in the declared order. -/
def missing (migrations : List PostgresMigration) (history : List PostgresAppliedMigration) :
    List PostgresMigration :=
  migrations.filter (·.id ∉ history.map (·.id))

variable {migrations : List PostgresMigration} {s t : Database} {done : List PostgresMigration}
  {m : PostgresMigration}

theorem applied_nil (s : Database) : Applied s [] s :=
  ⟨[], List.Forall₂.nil, (List.append_nil _).symm, (List.append_nil _).symm⟩

theorem Applied.commit (h : Applied s done t) {tx : Transaction} (hpending : t.pending = some tx)
    (htx : tx.Applies m) : Applied s (done ++ [m]) t.commit := by
  obtain ⟨txs, htxs, hcommitted, hhistory⟩ := h
  refine ⟨txs ++ [tx], List.rel_append htxs (List.Forall₂.cons htx List.Forall₂.nil), ?_, ?_⟩
  · rw [Database.commit, hpending, ← List.append_assoc, ← hcommitted]
  · rw [Database.commit, hpending, List.flatMap_append, ← List.append_assoc, ← hhistory]
    simp

/-! ### Rules -/

/-- What queries may do, none of them failing where `reliable` says so; at each of them `I` has to hold. -/
def rules (reliable : Bool) (I : Database → Prop) :
    Prog.Rules Op (fun o => Except MigrationError o.Res) Database where
  allowed _ := I
  effect o s x t := eff o s x t ∧ (reliable = true → ∃ a, x = .ok a)

section Rules

variable {reliable : Bool} {I : Database → Prop} {P : Database → Prop} {E : Database → Prop}

theorem triple_request {o : Op} {Q : o.Res → Database → Prop} (hI : ∀ s, P s → I s)
    (hok : ∀ s a t, P s → eff o s (.ok a) t → Q a t)
    (herror : ∀ s e t, reliable = false → P s → eff o s (.error e) t → E t) :
    Act.Triple (rules reliable I) P (request o) Q (fun _ => E) := by
  refine Act.Triple.ask hI (fun s a t hs he => hok s a t hs he.1) ?_
  intro s e t hs ⟨he, hreliable⟩
  refine herror s e t (Bool.eq_false_iff.mpr fun htrue => ?_) hs he
  obtain ⟨a, ha⟩ := hreliable htrue
  cases ha

/-- A query that leaves the database as it is. -/
theorem triple_idle {o : Op} (ho : o = .connect ∨ o = .acquireMigrationLock ∨ o = .createSchema ∨
      o = .ensureHistoryTable ∨ o = .releaseMigrationLock ∨ o = .dateNow) (hI : ∀ s, P s → I s) :
    Act.Triple (rules reliable I) P (request o) (fun _ => P) (fun _ s => reliable = false ∧ P s) := by
  have hsame : ∀ {s x t}, eff o s x t → t = s := by
    intro s x t he
    rcases ho with rfl | rfl | rfl | rfl | rfl | rfl
    iterate 5 exact he
    exact he.1
  refine triple_request hI (fun s a t hs he => hsame he ▸ hs) fun s e t hreliable hs he => ?_
  exact ⟨hreliable, hsame he ▸ hs⟩

theorem triple_selectHistory (hI : ∀ s, P s → I s) :
    Act.Triple (rules reliable I) P (request .selectHistory)
      (fun rows s => P s ∧ rows.Perm s.history ∧ rows.Pairwise (·.id ≤ ·.id))
      (fun _ s => reliable = false ∧ P s) := by
  refine triple_request hI ?_ ?_
  · rintro s rows t hs ⟨rfl, hrows⟩
    exact ⟨hs, hrows rows rfl⟩
  · rintro s e t hreliable hs ⟨rfl, -⟩
    exact ⟨hreliable, hs⟩

/-- The statements of a migration, one after the other. -/
theorem triple_statements (hI : ∀ t, Applied s done t → I t) (statements before : List String) :
    Act.Triple (rules reliable I)
      (fun t => Applied s done t ∧ t.pending = some { statements := before, rows := [] })
      (Act.forEach (fun sql => request (.statement sql)) statements)
      (fun _ t => Applied s done t ∧
        t.pending = some { statements := before ++ statements, rows := [] })
      (fun _ t => reliable = false ∧ Applied s done t) := by
  induction statements generalizing before with
  | nil =>
    refine Act.Triple.pure fun t ht => ?_
    rw [List.append_nil]
    exact ht
  | cons sql statements ih =>
    refine Act.Triple.bind (Q := fun _ t => Applied s done t ∧
      t.pending = some { statements := before ++ [sql], rows := [] }) ?_ fun _ => ?_
    · refine triple_request (fun t ht => hI t ht.1) ?_ ?_
      · rintro t a u ⟨ht, hpending⟩ (⟨-, rfl⟩ | ⟨⟨e, he⟩, -⟩)
        · refine ⟨ht, ?_⟩
          rw [Database.execute, hpending, Option.map_some]
        · cases he
      · rintro t e u hreliable ⟨ht, -⟩ (⟨he, -⟩ | ⟨-, rfl⟩)
        · cases he
        · exact ⟨hreliable, ht⟩
    · have hrest := ih (before ++ [sql])
      rw [List.append_assoc, List.singleton_append] at hrest
      exact hrest

/-- **One migration** is executed in one transaction with its row, or not at all. -/
theorem triple_applyMigration (hI : ∀ t, Applied s done t → I t)
    (hI' : ∀ t, Applied s (done ++ [m]) t → I t) :
    Act.Triple (rules reliable I) (fun t => Applied s done t ∧ t.pending = none) (applyMigration m)
      (fun _ t => Applied s (done ++ [m]) t ∧ t.pending = none)
      (fun _ t => reliable = false ∧ t.pending = none ∧
        (Applied s done t ∨ Applied s (done ++ [m]) t)) := by
  have hnow : ∀ {P : Database → Prop}, (∀ t, P t → I t) →
      Act.Triple (rules reliable I) P (request .dateNow) (fun _ => P)
        (fun _ t => reliable = false ∧ P t) := fun hP =>
    triple_idle (.inr (.inr (.inr (.inr (.inr rfl))))) hP
  refine Act.Triple.bind (Q := fun _ t => Applied s done t ∧ t.pending = none) ?_ fun startedAt => ?_
  · refine (hnow fun t ht => hI t ht.1).imp (fun _ h => h) (fun _ _ h => h) ?_
    rintro e t ⟨hreliable, ht, hpending⟩
    exact ⟨hreliable, hpending, .inl ht⟩
  refine Act.Triple.catching (E := fun _ t => reliable = false ∧
    (Applied s done t ∨ Applied s (done ++ [m]) t)) ?_ fun e => ?_
  · refine Act.Triple.bind (Q := fun _ t => Applied s done t ∧
      t.pending = some { statements := [], rows := [] }) ?_ fun _ => ?_
    · refine triple_request (fun t ht => hI t ht.1) ?_ ?_
      · rintro t a u ⟨ht, -⟩ (⟨-, rfl⟩ | ⟨⟨e, he⟩, -⟩)
        · exact ⟨ht, rfl⟩
        · cases he
      · rintro t e u hreliable ⟨ht, -⟩ (⟨he, -⟩ | ⟨-, rfl⟩)
        · cases he
        · exact ⟨hreliable, .inl ht⟩
    refine Act.Triple.bind (Q := fun _ t => Applied s done t ∧
      t.pending = some { statements := m.statements, rows := [] }) ?_ fun _ => ?_
    · refine (triple_statements hI m.statements []).imp (fun _ h => h) (fun _ _ h => h) ?_
      rintro e t ⟨hreliable, ht⟩
      exact ⟨hreliable, .inl ht⟩
    refine Act.Triple.bind (Q := fun _ t => Applied s done t ∧
      t.pending = some { statements := m.statements, rows := [] }) ?_ fun now => ?_
    · refine (hnow fun t ht => hI t ht.1).imp (fun _ h => h) (fun _ _ h => h) ?_
      rintro e t ⟨hreliable, ht, -⟩
      exact ⟨hreliable, .inl ht⟩
    refine Act.Triple.bind (Q := fun _ t => Applied s done t ∧
      ∃ tx, t.pending = some tx ∧ tx.Applies m) ?_ fun _ => ?_
    · refine triple_request (fun t ht => hI t ht.1) ?_ ?_
      · rintro t a u ⟨ht, hpending⟩ (⟨appliedAt, -, rfl⟩ | ⟨⟨e, he⟩, -⟩)
        · refine ⟨ht, { statements := m.statements, rows := [row m (now - startedAt) appliedAt] }, ?_,
            rfl, now - startedAt, appliedAt, rfl⟩
          rw [Database.insert, hpending]
          rfl
        · cases he
      · rintro t e u hreliable ⟨ht, -⟩ (⟨appliedAt, he, -⟩ | ⟨-, rfl⟩)
        · cases he
        · exact ⟨hreliable, .inl ht⟩
    refine triple_request (fun t ht => hI t ht.1) ?_ ?_
    · rintro t a u ⟨ht, tx, hpending, htx⟩ (⟨-, rfl⟩ | ⟨⟨e, he⟩, -⟩)
      · refine ⟨ht.commit hpending htx, ?_⟩
        rw [Database.commit, hpending]
      · cases he
    · -- a commit that fails may have been carried out
      rintro t e u hreliable ⟨ht, tx, hpending, htx⟩ (⟨he, -⟩ | ⟨-, rfl | rfl⟩)
      · cases he
      · exact ⟨hreliable, .inr (ht.commit hpending htx)⟩
      · exact ⟨hreliable, .inl ht⟩
  · refine Act.Triple.bind (Q := fun _ t => reliable = false ∧ t.pending = none ∧
      (Applied s done t ∨ Applied s (done ++ [m]) t)) ?_ fun _ => Act.Triple.throw fun t ht => ht
    refine triple_request (fun t ht => ht.2.elim (hI t) (hI' t)) ?_ ?_
    · rintro t a u ⟨hreliable, ht⟩ rfl
      exact ⟨hreliable, rfl, ht⟩
    · rintro t e u hreliable ⟨-, ht⟩ rfl
      exact ⟨hreliable, rfl, ht⟩

end Rules

/-! ### The whole invocation -/

theorem missing_sublist (history : List PostgresAppliedMigration) :
    (missing migrations history).Sublist migrations :=
  List.filter_sublist

/-- The ids of the rows that were added. -/
theorem Applied.ids (h : Applied s done t) :
    t.history.map (·.id) = s.history.map (·.id) ++ done.map (·.id) := by
  obtain ⟨txs, htxs, -, hhistory⟩ := h
  rw [hhistory, List.map_append, List.append_cancel_left_eq]
  clear hhistory
  induction htxs with
  | nil => rfl
  | cons htx _ ih =>
    obtain ⟨-, executionMs, appliedAt, hrows⟩ := htx
    rw [List.flatMap_cons, List.map_append, ih, hrows]
    rfl

theorem Applied.mem_history (h : Applied s done t) {applied : PostgresAppliedMigration}
    (happlied : applied ∈ t.history) :
    applied ∈ s.history ∨ ∃ m ∈ done, m.id = applied.id ∧ m.name = applied.name ∧
      m.checksum = applied.checksum := by
  obtain ⟨txs, htxs, -, hhistory⟩ := h
  rw [hhistory] at happlied
  refine (List.mem_append.mp happlied).imp_right fun hmem => ?_
  clear hhistory happlied
  induction htxs with
  | nil => cases hmem
  | cons htx _ ih =>
    rw [List.flatMap_cons] at hmem
    rcases List.mem_append.mp hmem with hfirst | hrest
    · obtain ⟨-, executionMs, appliedAt, hrows⟩ := htx
      rw [hrows] at hfirst
      rw [List.mem_singleton.mp hfirst]
      exact ⟨_, List.mem_cons_self, rfl, rfl, rfl⟩
    · obtain ⟨m, hm, hsame⟩ := ih hrest
      exact ⟨m, List.mem_cons_of_mem _ hm, hsame⟩

/-- **A complete history**: the declared migrations, each in one row. -/
structure Complete (migrations : List PostgresMigration) (history : List PostgresAppliedMigration) :
    Prop where
  compatible : Compatible migrations history
  ids : (history.map (·.id)).Perm (migrations.map (·.id))

/-- With the missing migrations a compatible history is complete. -/
theorem Compatible.complete (hdeclared : Declared migrations)
    (hcompatible : Compatible migrations s.history)
    (h : Applied s (missing migrations s.history) t) : Complete migrations t.history := by
  have hids := h.ids
  have hmissing : ∀ {m}, m ∈ missing migrations s.history ↔
      m ∈ migrations ∧ m.id ∉ s.history.map (·.id) := by
    intro m
    rw [missing, List.mem_filter, decide_eq_true_iff]
  have hall : ∀ m ∈ migrations, m.id ∈ t.history.map (·.id) := by
    intro m hm
    rw [hids, List.mem_append]
    by_cases hold : m.id ∈ s.history.map (·.id)
    · exact .inl hold
    · exact .inr (List.mem_map.mpr ⟨m, hmissing.mpr ⟨hm, hold⟩, rfl⟩)
  have hdistinct : (t.history.map (·.id)).Nodup := by
    rw [hids, List.nodup_append]
    refine ⟨hcompatible.distinct, ?_, ?_⟩
    · exact ((missing_sublist s.history).map (·.id)).nodup hdeclared.nodup
    · rintro id hold id' hnew rfl
      obtain ⟨m, hm, rfl⟩ := List.mem_map.mp hnew
      exact (hmissing.mp hm).2 hold
  have hknown : ∀ applied ∈ t.history, ∃ m ∈ migrations, m.id = applied.id ∧
      m.name = applied.name ∧ m.checksum = applied.checksum := by
    intro applied happlied
    rcases h.mem_history happlied with hold | ⟨m, hm, hsame⟩
    · obtain ⟨m, hm, hid⟩ := hcompatible.known applied hold
      exact ⟨m, hm, hid, hcompatible.same applied hold m hm hid⟩
    · exact ⟨m, (hmissing.mp hm).1, hsame⟩
  refine ⟨⟨hdistinct, ?_, ?_, fun applied _ m hm _ => hall m hm⟩, ?_⟩
  · intro applied happlied
    obtain ⟨m, hm, hid, -⟩ := hknown applied happlied
    exact ⟨m, hm, hid⟩
  · intro applied happlied m hm hid
    obtain ⟨m', hm', hid', hsame⟩ := hknown applied happlied
    rw [hdeclared.eq_of_id hm hm' (hid.trans hid'.symm)]
    exact hsame
  · refine (List.perm_ext_iff_of_nodup hdistinct hdeclared.nodup).mpr fun id => ?_
    constructor
    · intro hid
      obtain ⟨applied, happlied, rfl⟩ := List.mem_map.mp hid
      obtain ⟨m, hm, hid, -⟩ := hknown applied happlied
      exact List.mem_map.mpr ⟨m, hm, hid⟩
    · intro hid
      obtain ⟨m, hm, rfl⟩ := List.mem_map.mp hid
      exact hall m hm

/-- **What an invocation may have done at any point**: the first of the missing migrations, if the history
was compatible, and nothing otherwise. -/
def Progress (migrations : List PostgresMigration) (s t : Database) : Prop :=
  ∃ done, done <+: missing migrations s.history ∧ (done ≠ [] → Compatible migrations s.history) ∧
    Applied s done t

section Whole

variable {reliable : Bool}

/-- The loop: after each migration, those before it are done. -/
theorem triple_applyMissing (hcompatible : Compatible migrations s.history)
    (rest : List PostgresMigration) (done : List PostgresMigration)
    (hsplit : done ++ missing rest s.history = missing migrations s.history) {appliedIds : List Int}
    (hids : ∀ id, id ∈ appliedIds ↔ id ∈ s.history.map (·.id)) :
    Act.Triple (rules reliable (Progress migrations s)) (fun t => Applied s done t ∧ t.pending = none)
      (Act.forEach
        (fun migration => if migration.id ∈ appliedIds then pure () else applyMigration migration) rest)
      (fun _ t => Applied s (missing migrations s.history) t ∧ t.pending = none)
      (fun _ t => reliable = false ∧ t.pending = none ∧ Progress migrations s t) := by
  induction rest generalizing done with
  | nil =>
    rw [missing, List.filter_nil, List.append_nil] at hsplit
    exact Act.Triple.pure fun t ht => hsplit ▸ ht
  | cons m rest ih =>
    by_cases hm : m.id ∈ s.history.map (·.id)
    · have hskip : missing (m :: rest) s.history = missing rest s.history :=
        List.filter_cons_of_neg (by simpa using hm)
      rw [hskip] at hsplit
      refine Act.Triple.bind (Q := fun _ t => Applied s done t ∧ t.pending = none) ?_ fun _ =>
        ih done hsplit
      dsimp only
      rw [if_pos ((hids m.id).mpr hm)]
      exact Act.Triple.pure fun t ht => ht
    · have hnext : missing (m :: rest) s.history = m :: missing rest s.history :=
        List.filter_cons_of_pos (by simpa using hm)
      rw [hnext] at hsplit
      have hdone : done <+: missing migrations s.history := ⟨_, hsplit⟩
      have hdone' : done ++ [m] <+: missing migrations s.history := by
        refine ⟨missing rest s.history, ?_⟩
        rw [List.append_assoc, List.singleton_append, hsplit]
      have hbefore : ∀ t, Applied s done t → Progress migrations s t :=
        fun t ht => ⟨done, hdone, fun _ => hcompatible, ht⟩
      have hafter : ∀ t, Applied s (done ++ [m]) t → Progress migrations s t :=
        fun t ht => ⟨done ++ [m], hdone', fun _ => hcompatible, ht⟩
      refine Act.Triple.bind (Q := fun _ t => Applied s (done ++ [m]) t ∧ t.pending = none) ?_ fun _ =>
        ih (done ++ [m]) ?_
      · dsimp only
        rw [if_neg fun h => hm ((hids m.id).mp h)]
        refine (triple_applyMigration hbefore hafter).imp (fun _ h => h) (fun _ _ h => h) ?_
        rintro e t ⟨hreliable, hpending, ht⟩
        exact ⟨hreliable, hpending, ht.elim (hbefore t) (hafter t)⟩
      · rw [List.append_assoc, List.singleton_append, hsplit]

/-- **`applyPendingMigrations`**: a result is for a compatible history and the missing migrations are done;
an error without the failure of a query is for an incompatible one. -/
theorem triple_applyPendingMigrations (reliable : Bool) (runner : PostgresMigrationRunner) (s : Database)
    (hpending : s.pending = none) :
    Act.Triple (rules reliable (Progress runner.migrations s)) (fun t => t = s)
      runner.applyPendingMigrations
      (fun result t => Compatible runner.migrations s.history ∧
        Applied s (missing runner.migrations s.history) t ∧
        result.appliedMigrations.Perm t.history ∧
        result.appliedMigrations.Pairwise (·.id ≤ ·.id))
      (fun _ t => Progress runner.migrations s t ∧
        (reliable = true → ¬ Compatible runner.migrations s.history)) := by
  have hstart : ∀ t, t = s → Progress runner.migrations s t := by
    rintro t rfl
    exact ⟨[], List.nil_prefix, fun h => absurd rfl h, applied_nil t⟩
  have hfailed : ∀ (e : MigrationError) t, reliable = false ∧ t = s →
      Progress runner.migrations s t ∧
        (reliable = true → ¬ Compatible runner.migrations s.history) := by
    rintro e t ⟨hreliable, ht⟩
    exact ⟨hstart t ht, fun htrue => absurd (hreliable.symm.trans htrue) Bool.false_ne_true⟩
  have hidle : ∀ {o : Op}, (o = .connect ∨ o = .acquireMigrationLock ∨ o = .createSchema ∨
        o = .ensureHistoryTable ∨ o = .releaseMigrationLock ∨ o = .dateNow) →
      Act.Triple (rules reliable (Progress runner.migrations s)) (fun t => t = s) (request o)
        (fun _ t => t = s) (fun _ t => Progress runner.migrations s t ∧
          (reliable = true → ¬ Compatible runner.migrations s.history)) :=
    fun ho => (triple_idle ho hstart).imp (fun _ h => h) (fun _ _ h => h) hfailed
  refine Act.Triple.bind (hidle (.inl rfl)) fun _ => ?_
  refine Act.Triple.finallyDo (Q := fun result t => Compatible runner.migrations s.history ∧
      Applied s (missing runner.migrations s.history) t ∧
      result.appliedMigrations.Perm t.history ∧ result.appliedMigrations.Pairwise (·.id ≤ ·.id))
    (E := fun _ t => Progress runner.migrations s t ∧
      (reliable = true → ¬ Compatible runner.migrations s.history)) ?_ ?_ ?_
  · refine Act.Triple.bind (hidle (.inr (.inl rfl))) fun _ => ?_
    refine Act.Triple.bind (hidle (.inr (.inr (.inl rfl)))) fun _ => ?_
    refine Act.Triple.bind (hidle (.inr (.inr (.inr (.inl rfl))))) fun _ => ?_
    refine Act.Triple.bind (Q := fun rows t => t = s ∧ rows.Perm t.history ∧
      rows.Pairwise (·.id ≤ ·.id)) ((triple_selectHistory hstart).imp (fun _ h => h)
        (fun _ _ h => h) hfailed) fun rows => ?_
    -- the history is checked before anything is executed
    by_cases hcheck : assertAppliedMigrationsAreCompatible runner.migrations rows = .ok ()
    · rw [hcheck]
      intro t ht
      obtain ⟨rfl, hperm, hsorted⟩ := ht
      have hcompatible : Compatible runner.migrations t.history :=
        ((assertCompatible_iff (declared runner) hsorted).mp hcheck).perm hperm.symm
      have hids : ∀ id, id ∈ rows.map (·.id) ↔ id ∈ t.history.map (·.id) :=
        fun id => (hperm.map (·.id)).mem_iff
      have hprogress : ∀ u, Applied t (missing runner.migrations t.history) u →
          Progress runner.migrations t u := fun u hu =>
        ⟨_, List.prefix_rfl, fun _ => hcompatible, hu⟩
      have hfailed' : ∀ (e : MigrationError) u, reliable = false ∧ Progress runner.migrations t u →
          Progress runner.migrations t u ∧
            (reliable = true → ¬ Compatible runner.migrations t.history) := by
        rintro e u ⟨hreliable, hu⟩
        exact ⟨hu, fun htrue => absurd (hreliable.symm.trans htrue) Bool.false_ne_true⟩
      refine Act.Triple.bind (P := fun u => Applied t [] u ∧ u.pending = none)
        (Q := fun _ u => Applied t [] u ∧ u.pending = none) (Act.Triple.pure fun _ h => h)
        (fun _ => ?_) t ⟨applied_nil t, hpending⟩
      refine Act.Triple.bind (Q := fun _ u => Applied t (missing runner.migrations t.history) u) ?_
        fun _ => ?_
      · refine (triple_applyMissing hcompatible runner.migrations [] rfl hids).imp (fun _ h => h)
          (fun _ u hu => hu.1) ?_
        rintro e u ⟨hreliable, -, hu⟩
        exact hfailed' e u ⟨hreliable, hu⟩
      · refine Act.Triple.bind (Q := fun rows u => Applied t (missing runner.migrations t.history) u ∧
          rows.Perm u.history ∧ rows.Pairwise (·.id ≤ ·.id)) ?_ fun rows => ?_
        · refine (triple_selectHistory hprogress).imp (fun _ h => h) (fun _ _ h => h) ?_
          rintro e u ⟨hreliable, hu⟩
          exact hfailed' e u ⟨hreliable, hprogress u hu⟩
        · rintro u ⟨hu, hperm', hsorted'⟩
          have hcomplete := hcompatible.complete (declared runner) hu
          have hcheck' : assertAppliedMigrationsAreCompatible runner.migrations rows = .ok () :=
            (assertCompatible_iff (declared runner) hsorted').mpr (hcomplete.compatible.perm hperm')
          show Act.wp _ (Act.ofExcept _ >>= _) _ u
          rw [hcheck']
          exact ⟨hcompatible, hu, hperm', hsorted'⟩
    · rintro t ⟨rfl, hperm, hsorted⟩
      cases herror : assertAppliedMigrationsAreCompatible runner.migrations rows with
      | ok u => exact absurd herror hcheck
      | error e =>
        refine ⟨hstart t rfl, fun _ hcompatible => hcheck ?_⟩
        exact (assertCompatible_iff (declared runner) hsorted).mpr (hcompatible.perm hperm)
  · intro result
    refine (triple_idle (.inr (.inr (.inr (.inr (.inl rfl))))) ?_).imp (fun _ h => h)
      (fun _ _ h => h) ?_
    · rintro t ⟨hcompatible, ht, -⟩
      exact ⟨_, List.prefix_rfl, fun _ => hcompatible, ht⟩
    · rintro e t ⟨hreliable, hcompatible, ht, -⟩
      exact ⟨⟨_, List.prefix_rfl, fun _ => hcompatible, ht⟩,
        fun htrue => absurd (hreliable.symm.trans htrue) Bool.false_ne_true⟩
  · intro e
    refine (triple_idle (.inr (.inr (.inr (.inr (.inl rfl))))) ?_).imp (fun _ h => h)
      (fun _ _ h => h) ?_
    · exact fun t ht => ht.1
    · exact fun _ t ht => ht.2

end Whole

/-! ### Every invocation -/

/-- What is compared with the declared migration. -/
def recorded (applied : PostgresAppliedMigration) : Int × String × String :=
  (applied.id, applied.name, applied.checksum)

def declaration (m : PostgresMigration) : Int × String × String := (m.id, m.name, m.checksum)

/-- A complete history is the declared list. -/
theorem Complete.perm (hdeclared : Declared migrations) {history : List PostgresAppliedMigration}
    (h : Complete migrations history) :
    (history.map recorded).Perm (migrations.map declaration) := by
  have hfst : ∀ {α : Type} {f : α → Int × String × String} {l : List α},
      (l.map fun a => (f a).1).Nodup → (l.map f).Nodup := by
    intro α f l hl
    refine List.Nodup.of_map Prod.fst ?_
    rw [List.map_map]
    exact hl
  refine (List.perm_ext_iff_of_nodup (hfst h.compatible.distinct) (hfst hdeclared.nodup)).mpr ?_
  intro key
  constructor
  · intro hkey
    obtain ⟨applied, happlied, rfl⟩ := List.mem_map.mp hkey
    obtain ⟨m, hm, hid⟩ := h.compatible.known applied happlied
    obtain ⟨hname, hchecksum⟩ := h.compatible.same applied happlied m hm hid
    refine List.mem_map.mpr ⟨m, hm, ?_⟩
    rw [declaration, hid, hname, hchecksum]
    rfl
  · intro hkey
    obtain ⟨m, hm, rfl⟩ := List.mem_map.mp hkey
    obtain ⟨applied, happlied, hid⟩ :=
      List.mem_map.mp (h.ids.mem_iff.mpr (List.mem_map_of_mem (f := (·.id)) hm))
    obtain ⟨hname, hchecksum⟩ := h.compatible.same applied happlied m hm hid.symm
    refine List.mem_map.mpr ⟨applied, happlied, ?_⟩
    rw [declaration, hname, hchecksum, ← hid]
    rfl

variable {runner : PostgresMigrationRunner}

/-- Where an invocation gets, whichever queries fail. -/
theorem wp_of_path {rest : Prog Op (fun o => Except MigrationError o.Res)
      (Except MigrationError PostgresMigrationApplyResult)} (hpending : s.pending = none)
    (hpath : Prog.Path eff (runner.applyPendingMigrations.run, s) (rest, t)) :
    Progress runner.migrations s t ∧ ∀ result, rest = .ret (.ok result) →
      Compatible runner.migrations s.history ∧
        Applied s (missing runner.migrations s.history) t := by
  have heff : (rules false (Progress runner.migrations s)).effect = eff := by
    funext o s x t
    exact propext (and_iff_left nofun)
  have hwp := triple_applyPendingMigrations false runner s hpending s rfl
  rw [← heff] at hpath
  have hrest := Prog.wp_path hwp hpath
  cases rest with
  | ask o k => exact ⟨hrest.1, nofun⟩
  | ret r =>
    cases r with
    | error e => exact ⟨hrest.1, nofun⟩
    | ok result =>
      obtain ⟨hcompatible, happlied, -⟩ := hrest
      exact ⟨⟨_, List.prefix_rfl, fun _ => hcompatible, happlied⟩, fun _ _ => ⟨hcompatible, happlied⟩⟩

theorem respond_eff (o : Op) (s : Database) :
    (rules true (Progress migrations t)).effect o s (respond o s).1 (respond o s).2 := by
  cases o with
  | connect | acquireMigrationLock | createSchema | ensureHistoryTable | releaseMigrationLock =>
    exact ⟨rfl, fun _ => ⟨(), rfl⟩⟩
  | selectHistory =>
    refine ⟨⟨rfl, fun rows hrows => ?_⟩, fun _ => ⟨_, rfl⟩⟩
    obtain rfl := Except.ok.inj hrows
    have htotal : Std.Total fun r r' : PostgresAppliedMigration => r.id ≤ r'.id :=
      ⟨fun r r' => le_total r.id r'.id⟩
    have htrans : IsTrans PostgresAppliedMigration fun r r' => r.id ≤ r'.id :=
      ⟨fun _ _ _ h h' => h.trans h'⟩
    exact ⟨List.perm_insertionSort _ s.history, List.pairwise_insertionSort _ s.history⟩
  | dateNow => exact ⟨⟨rfl, 0, rfl⟩, fun _ => ⟨0, rfl⟩⟩
  | begin | statement sql | commit => exact ⟨.inl ⟨rfl, rfl⟩, fun _ => ⟨(), rfl⟩⟩
  | insertHistory m executionMs => exact ⟨.inl ⟨"now", rfl, rfl⟩, fun _ => ⟨(), rfl⟩⟩
  | rollback => exact ⟨rfl, fun _ => ⟨(), rfl⟩⟩

/-- The ids of the migrations that were executed. -/
def Database.executedIds (s : Database) : List Int :=
  (s.committed.flatMap (·.rows)).map (·.id)

/-- What invocations keep: the history is the one of the beginning and the migrations executed since, each
of them once. -/
structure Kept (history : List PostgresAppliedMigration) (s : Database) : Prop where
  pending : s.pending = none
  history : s.history = history ++ s.committed.flatMap (·.rows)
  once : s.executedIds.Nodup

theorem Kept.invocation {history : List PostgresAppliedMigration} (hs : Kept history s)
    (h : runner.Invocation s t) : Kept history t := by
  obtain ⟨rest, u, hpath, rfl⟩ := h
  obtain ⟨⟨done, hdone, -, happlied⟩, -⟩ := wp_of_path hs.pending hpath
  have hids := happlied.ids
  obtain ⟨txs, htxs, hcommitted, hhistory⟩ := happlied
  have hsub : done.Sublist runner.migrations := hdone.sublist.trans (missing_sublist s.history)
  have hu : u.history = history ++ u.committed.flatMap (·.rows) := by
    rw [hhistory, hcommitted, hs.history, List.flatMap_append, List.append_assoc]
  refine ⟨rfl, hu, ?_⟩
  -- the executed ids are those before, and the ids of the migrations that were missing
  have hexecuted : u.executedIds = s.executedIds ++ done.map (·.id) := by
    rw [hu, hs.history, List.map_append, List.map_append, List.append_assoc,
      List.append_cancel_left_eq] at hids
    exact hids
  show u.executedIds.Nodup
  rw [hexecuted, List.nodup_append]
  refine ⟨hs.once, (hsub.map (·.id)).nodup (declared runner).nodup, ?_⟩
  rintro id hold id' hnew rfl
  obtain ⟨m, hm, rfl⟩ := List.mem_map.mp hnew
  have hmissing := of_decide_eq_true (List.mem_filter.mp (hdone.subset hm)).2
  refine hmissing ?_
  rw [hs.history, List.map_append]
  exact List.mem_append_right _ hold

/-- **Migrations.** For every history: (1) an invocation has at any point executed the first of the missing
migrations, in the declared order and each in one transaction with its row, and if it has a result, all of
them, with the declared list in the table; (2) for an incompatible history it executes nothing and has no
result; (3) where no query fails, a compatible history gives a result, and an incompatible one an error.
(4) In every sequence of invocations, of any runners, crashed or completed, no migration is executed twice. -/
theorem applyPendingMigrations_exact (runner : PostgresMigrationRunner)
    (history : List PostgresAppliedMigration) :
    (∀ rest t, Prog.Path eff (runner.applyPendingMigrations.run, ⟨history, [], none⟩) (rest, t) →
      (∃ done, done <+: missing runner.migrations history ∧ Applied ⟨history, [], none⟩ done t) ∧
      (∀ result, rest = .ret (.ok result) →
        Applied ⟨history, [], none⟩ (missing runner.migrations history) t ∧
        (t.history.map recorded).Perm
          (runner.migrations.map declaration)) ∧
      (¬ Compatible runner.migrations history →
        t.committed = [] ∧ t.history = history ∧ ∀ result, rest ≠ .ret (.ok result))) ∧
    (Compatible runner.migrations history → ∃ result t,
      Act.exec respond runner.applyPendingMigrations ⟨history, [], none⟩ = (.ok result, t) ∧
        Applied ⟨history, [], none⟩ (missing runner.migrations history) t ∧
        (t.history.map recorded).Perm (runner.migrations.map declaration)) ∧
    (¬ Compatible runner.migrations history → ∃ e t,
      Act.exec respond runner.applyPendingMigrations ⟨history, [], none⟩ = (.error e, t) ∧
        t.committed = [] ∧ t.history = history) ∧
    ∀ t, Relation.ReflTransGen (fun s t => ∃ runner : PostgresMigrationRunner, runner.Invocation s t)
      ⟨history, [], none⟩ t → t.executedIds.Nodup := by
  have hcomplete : ∀ {t}, Compatible runner.migrations history →
      Applied ⟨history, [], none⟩ (missing runner.migrations history) t →
        (t.history.map recorded).Perm (runner.migrations.map declaration) :=
    fun hcompatible happlied => (hcompatible.complete (declared runner) happlied).perm (declared runner)
  have hnothing : ∀ {t}, Progress runner.migrations ⟨history, [], none⟩ t →
      ¬ Compatible runner.migrations history → t.committed = [] ∧ t.history = history := by
    rintro t ⟨done, -, hcompatible, txs, htxs, hcommitted, hhistory⟩ hnot
    obtain rfl : done = [] := by
      by_contra hne
      exact hnot (hcompatible hne)
    obtain rfl := List.forall₂_nil_right_iff.mp htxs
    exact ⟨hcommitted, hhistory.trans (List.append_nil _)⟩
  have hexec := Act.wp_exec (triple_applyPendingMigrations true runner
    ⟨history, [], none⟩ rfl _ rfl) respond_eff
  rcases hrun : Act.exec respond runner.applyPendingMigrations ⟨history, [], none⟩ with ⟨r, t⟩
  rw [hrun] at hexec
  refine ⟨?_, fun hcompatible => ?_, fun hnot => ?_, ?_⟩
  · intro rest t hpath
    obtain ⟨hprogress, hresult⟩ := wp_of_path rfl hpath
    refine ⟨?_, fun result hrest => ?_, fun hnot => ?_⟩
    · obtain ⟨done, hdone, -, happlied⟩ := hprogress
      exact ⟨done, hdone, happlied⟩
    · obtain ⟨hcompatible, happlied⟩ := hresult result hrest
      exact ⟨happlied, hcomplete hcompatible happlied⟩
    · obtain ⟨hcommitted, hhistory⟩ := hnothing hprogress hnot
      exact ⟨hcommitted, hhistory, fun result hrest => hnot (hresult result hrest).1⟩
  · cases r with
    | ok result => exact ⟨result, t, rfl, hexec.2.1, hcomplete hcompatible hexec.2.1⟩
    | error e => exact absurd hcompatible (hexec.2 rfl)
  · cases r with
    | ok result => exact absurd hexec.1 hnot
    | error e => exact ⟨e, t, rfl, hnothing hexec.1 hnot⟩
  · intro t hrun
    have hkept : Kept history t := by
      induction hrun with
      | refl => exact ⟨rfl, (List.append_nil history).symm, List.nodup_nil⟩
      | tail _ hstep ih =>
        obtain ⟨runner', hinvocation⟩ := hstep
        exact ih.invocation hinvocation
    exact hkept.once

/-- Of two migrations the history has the first: the second is executed. -/
example :
    let runner : PostgresMigrationRunner :=
      { migrations := [⟨1, "init", "c1", ["CREATE TABLE a ()"]⟩, ⟨8, "logs", "c8", ["CREATE TABLE b ()"]⟩]
        valid := rfl }
    (Act.exec respond runner.applyPendingMigrations
      ⟨[⟨1, "init", "c1", "then", 3⟩], [], none⟩).2.executedIds = [8] := by
  decide +kernel

end PostgresMigrationRunner

end AiOrchestrator
