import AiOrchestrator.Mutation.Course
import Mathlib.Data.List.Sort

/-!
# Runs of the mutation pipeline

When a run of the pipeline does what is expected of it (`Correct`): it resolves, tells of every
call, succeeds exactly when every stage has succeeded once, calls the stages in order and within
their numbers of attempts, and compensates the stage at which it stops once. `Sound` is the
condition on the stages, and `run_correct_iff` the theorem. The counting lemmas follow the two
halves of a run, the attempts of its first stage and the calls of the rest.
-/

namespace AiOrchestrator

/-- `count ≤ max(1, limit)`. -/
def Number.Admits (limit : Number) (count : Nat) : Prop :=
  count ≤ 1 ∨ match limit with
    | finite value => (count : ℚ) ≤ value
    | infinity => True
    | nan | negativeInfinity => False

namespace StageCall

variable {σ : Type}

def stage : StageCall σ → RepoMutationStageName
  | executed stage _ _ | compensated stage _ => stage

def isAttemptOf (name : RepoMutationStageName) : StageCall σ → Bool
  | executed stage _ _ => decide (stage = name)
  | compensated .. => false

def isSuccessOf (name : RepoMutationStageName) : StageCall σ → Bool
  | executed stage _ outcome => decide (stage = name) && outcome.succeeded
  | compensated .. => false

def isCompensationOf (name : RepoMutationStageName) : StageCall σ → Bool
  | executed .. => false
  | compensated stage _ => decide (stage = name)

def executed? : StageCall σ → Option RepoMutationStageName
  | executed stage _ _ => some stage
  | compensated .. => none

end StageCall

namespace RepoMutationPipeline

variable {σ : Type}

/-- The number of attempts of a stage. -/
def attempts (name : RepoMutationStageName) (calls : List (StageCall σ)) : Nat :=
  calls.countP (StageCall.isAttemptOf name)

/-- The number of attempts of a stage that succeeded. -/
def successes (name : RepoMutationStageName) (calls : List (StageCall σ)) : Nat :=
  calls.countP (StageCall.isSuccessOf name)

/-- The number of calls of the compensation of a stage. -/
def compensations (name : RepoMutationStageName) (calls : List (StageCall σ)) : Nat :=
  calls.countP (StageCall.isCompensationOf name)

/-- The stages of the attempts, in their order. -/
def executedStages (calls : List (StageCall σ)) : List RepoMutationStageName :=
  calls.filterMap StageCall.executed?

/-- How a run ends: after all stages, or at the stage of its last attempt. -/
def Stops (stages : List (RepoMutationStageDefinition σ)) (result : RepoMutationPipelineResult)
    (calls : List (StageCall σ)) : Prop :=
  (result.ok = true ∧ result.stoppedAt = none) ∨
    (result.ok = false ∧ ∃ stage ∈ stages, result.stoppedAt = some stage.name ∧
      (executedStages calls).getLast? = some stage.name)

/-- **What a run does with its stages**: the result is `ok` exactly when every stage has succeeded
once; the attempts follow `STAGE_ORDER`, with none after the stage at which the run stops; a stage
is attempted at least once before any later one, and at most `max(1, maxAttempts)` times; and the
compensation of the stage at which the run stops is called once. -/
structure Orderly (stages : List (RepoMutationStageDefinition σ))
    (result : RepoMutationPipelineResult) (calls : List (StageCall σ)) : Prop where
  ok_iff : result.ok = true ↔ ∀ stage ∈ stages, successes stage.name calls = 1
  ordered : (executedStages calls).Pairwise fun a b => a.index ≤ b.index
  stops : Stops stages result calls
  atLeastOnce : ∀ stage ∈ stages, ∀ later ∈ executedStages calls,
    stage.name.index < later.index → 1 ≤ attempts stage.name calls
  atMost : ∀ stage ∈ stages, stage.maxAttempts.Admits (attempts stage.name calls)
  compensated : ∀ stage ∈ stages, result.stoppedAt = some stage.name →
    stage.compensate.isSome = true → compensations stage.name calls = 1

/-- **A correct run**: there is an evidence for every call, and it is orderly. -/
structure Correct (stages : List (RepoMutationStageDefinition σ))
    (result : RepoMutationPipelineResult) (calls : List (StageCall σ)) : Prop where
  evidences : List.Forall₂ StageCall.Evidenced calls result.evidences
  orderly : Orderly stages result calls

/-- **The stages behave** from the world `w` on: the first one has a last attempt, not beyond
`max(1, maxAttempts)`; where it succeeds the others behave after it, and where it does not its
compensation does not throw. -/
def Sound : List (RepoMutationStageDefinition σ) → σ → Prop
  | [], _ => True
  | stage :: rest, w => ∃ n, LastAttempt stage w n ∧ stage.maxAttempts.Admits (n + 1) ∧
      ((stage.outcomeAt w n).succeeded = true → Sound rest (stage.worldAfter (n + 1) w)) ∧
      ((stage.outcomeAt w n).succeeded = false →
        Compensates stage (stage.worldAfter (n + 1) w))

/-! ### Counting -/

section Counting

variable {name : RepoMutationStageName} {calls calls' : List (StageCall σ)}

@[simp] theorem attempts_append :
    attempts name (calls ++ calls') = attempts name calls + attempts name calls' :=
  List.countP_append

@[simp] theorem successes_append :
    successes name (calls ++ calls') = successes name calls + successes name calls' :=
  List.countP_append

@[simp] theorem compensations_append :
    compensations name (calls ++ calls') = compensations name calls + compensations name calls' :=
  List.countP_append

@[simp] theorem executedStages_append :
    executedStages (calls ++ calls') = executedStages calls ++ executedStages calls' :=
  List.filterMap_append

theorem attempts_eq_zero (h : ∀ call ∈ calls, call.stage ≠ name) : attempts name calls = 0 := by
  refine List.countP_eq_zero.mpr fun call hcall => ?_
  cases call with
  | executed stage before outcome => exact fun hname => h _ hcall (of_decide_eq_true hname)
  | compensated stage result => nofun

theorem successes_eq_zero (h : ∀ call ∈ calls, call.stage ≠ name) : successes name calls = 0 := by
  refine List.countP_eq_zero.mpr fun call hcall => ?_
  cases call with
  | executed stage before outcome =>
    intro hname
    exact h _ hcall (of_decide_eq_true (Bool.and_eq_true_iff.mp hname).1)
  | compensated stage result => nofun

theorem stage_of_mem_executedStages (h : name ∈ executedStages calls) :
    ∃ call ∈ calls, call.stage = name := by
  obtain ⟨call, hcall, hname⟩ := List.mem_filterMap.mp h
  cases call with
  | executed stage before outcome => exact ⟨_, hcall, Option.some.inj hname⟩
  | compensated stage result => cases hname

variable {stage : RepoMutationStageDefinition σ} {w : σ} {n : Nat}

theorem stage_of_mem_tries {call : StageCall σ} (h : call ∈ stage.tries w n) :
    call.stage = stage.name := by
  obtain ⟨k, -, rfl⟩ := List.mem_map.mp h
  rfl

@[simp] theorem attempts_tries : attempts stage.name (stage.tries w n) = n := by
  induction n with
  | zero => rfl
  | succ n ih =>
    rw [stage.tries_succ', attempts_append, ih]
    simp [attempts, StageCall.isAttemptOf]

theorem successes_tries (h : stage.Retries w n) : successes stage.name (stage.tries w n) = 0 := by
  refine List.countP_eq_zero.mpr fun call hcall => ?_
  obtain ⟨k, hk, rfl⟩ := List.mem_map.mp hcall
  have hfailed := StageOutcome.succeeded_eq_false (h k (List.mem_range.mp hk))
  simp [StageCall.isSuccessOf, hfailed]

/-- Of the attempts of a stage only the last one may succeed. -/
theorem successes_tries_succ (h : stage.Retries w n) :
    successes stage.name (stage.tries w (n + 1)) =
      if (stage.outcomeAt w n).succeeded then 1 else 0 := by
  rw [stage.tries_succ', successes_append, successes_tries h]
  cases hsucceeded : (stage.outcomeAt w n).succeeded <;>
    simp [successes, StageCall.isSuccessOf, hsucceeded]

@[simp] theorem compensations_tries : compensations name (stage.tries w n) = 0 := by
  refine List.countP_eq_zero.mpr fun call hcall => ?_
  obtain ⟨k, -, rfl⟩ := List.mem_map.mp hcall
  nofun

@[simp] theorem executedStages_tries :
    executedStages (stage.tries w n) = List.replicate n stage.name := by
  induction n with
  | zero => rfl
  | succ n ih =>
    rw [stage.tries_succ', executedStages_append, ih, List.replicate_succ']
    rfl

@[simp] theorem attempts_compensation : attempts name (compensation stage) = 0 := by
  unfold compensation
  split <;> rfl

@[simp] theorem successes_compensation : successes name (compensation stage) = 0 := by
  unfold compensation
  split <;> rfl

@[simp] theorem executedStages_compensation : executedStages (compensation stage) = [] := by
  unfold compensation
  split <;> rfl

theorem compensations_map (results : List (Except StageError Unit)) :
    compensations name (results.map (.compensated name : _ → StageCall σ)) = results.length := by
  unfold compensations
  rw [List.countP_map, List.countP_eq_length]
  exact fun answer _ => decide_eq_true rfl

theorem compensations_compensation (h : stage.compensate.isSome = true) :
    compensations stage.name (compensation stage) = 1 := by
  simp [compensation, h, compensations, StageCall.isCompensationOf]

end Counting

/-! ### The first stage and the rest -/

section Cons

variable {stage : RepoMutationStageDefinition σ} {rest : List (RepoMutationStageDefinition σ)}
  {result : RepoMutationPipelineResult} {calls : List (StageCall σ)} {w : σ} {n : Nat}

/-- The calls are calls of these stages. -/
def CallsOf (stages : List (RepoMutationStageDefinition σ)) (calls : List (StageCall σ)) : Prop :=
  ∀ call ∈ calls, ∃ stage ∈ stages, call.stage = stage.name

/-- The stages are in `STAGE_ORDER`, without repetition. -/
def Ordered (stages : List (RepoMutationStageDefinition σ)) : Prop :=
  stages.Pairwise fun a b => a.name.index < b.name.index

theorem Ordered.index_lt (h : Ordered (stage :: rest)) :
    ∀ later ∈ rest, stage.name.index < later.name.index :=
  (List.pairwise_cons.mp h).1

theorem Ordered.tail (h : Ordered (stage :: rest)) : Ordered rest :=
  (List.pairwise_cons.mp h).2

theorem Ordered.ne (h : Ordered (stage :: rest)) (hcalls : CallsOf rest calls) :
    ∀ call ∈ calls, call.stage ≠ stage.name := by
  intro call hcall heq
  obtain ⟨later, hlater, hname⟩ := hcalls call hcall
  have hlt := h.index_lt later hlater
  rw [← hname, heq] at hlt
  exact lt_irrefl _ hlt

theorem Ordered.tries_ne (h : Ordered (stage :: rest)) {later : RepoMutationStageDefinition σ}
    (hlater : later ∈ rest) : ∀ call ∈ stage.tries w n, call.stage ≠ later.name := by
  intro call hcall heq
  rw [stage_of_mem_tries hcall] at heq
  have hlt := h.index_lt later hlater
  rw [heq] at hlt
  exact lt_irrefl _ hlt

theorem index_lt_of_mem (h : Ordered (stage :: rest)) (hcalls : CallsOf rest calls) :
    ∀ later ∈ executedStages calls, stage.name.index < later.index := by
  intro later hlater
  obtain ⟨call, hcall, rfl⟩ := stage_of_mem_executedStages hlater
  obtain ⟨other, hother, hname⟩ := hcalls call hcall
  rw [hname]
  exact h.index_lt other hother

theorem Ordered.attempts_later (h : Ordered (stage :: rest))
    {later : RepoMutationStageDefinition σ} (hlater : later ∈ rest) :
    attempts later.name (stage.tries w n ++ calls) = attempts later.name calls := by
  rw [attempts_append, attempts_eq_zero (h.tries_ne hlater), Nat.zero_add]

theorem Ordered.successes_later (h : Ordered (stage :: rest))
    {later : RepoMutationStageDefinition σ} (hlater : later ∈ rest) :
    successes later.name (stage.tries w n ++ calls) = successes later.name calls := by
  rw [successes_append, successes_eq_zero (h.tries_ne hlater), Nat.zero_add]

theorem Ordered.successes_first (h : Ordered (stage :: rest)) (hcalls : CallsOf rest calls)
    (hretries : stage.Retries w n) (hsucceeded : (stage.outcomeAt w n).succeeded = true) :
    successes stage.name (stage.tries w (n + 1) ++ calls) = 1 := by
  rw [successes_append, successes_tries_succ hretries, if_pos hsucceeded,
    successes_eq_zero (h.ne hcalls)]

theorem Ordered.attempts_first (h : Ordered (stage :: rest)) (hcalls : CallsOf rest calls) :
    attempts stage.name (stage.tries w n ++ calls) = n := by
  rw [attempts_append, attempts_tries, attempts_eq_zero (h.ne hcalls), Nat.add_zero]

theorem Stops.later (earlier : List (StageCall σ)) (h : Stops rest result calls) :
    Stops (stage :: rest) result (earlier ++ calls) := by
  rcases h with hok | ⟨hok, later, hlater, hstopped, hlast⟩
  · exact .inl hok
  · refine .inr ⟨hok, later, List.mem_cons_of_mem _ hlater, hstopped, ?_⟩
    rw [executedStages_append, List.getLast?_append, hlast, Option.some_or]

theorem stops_here {after : List (StageCall σ)} (hafter : executedStages after = [])
    (hresult : result.ok = false ∧ result.stoppedAt = some stage.name) :
    Stops (stage :: rest) result (stage.tries w (n + 1) ++ after) := by
  refine .inr ⟨hresult.1, stage, List.mem_cons_self, hresult.2, ?_⟩
  rw [executedStages_append, executedStages_tries, hafter, List.append_nil,
    List.getLast?_replicate]
  rfl

/-- A first stage that succeeds, before an orderly run of the rest. -/
theorem Orderly.cons (hordered : Ordered (stage :: rest)) (hcalls : CallsOf rest calls)
    (hretries : stage.Retries w n) (hsucceeded : (stage.outcomeAt w n).succeeded = true)
    (hadmits : stage.maxAttempts.Admits (n + 1)) (h : Orderly rest result calls) :
    Orderly (stage :: rest) result (stage.tries w (n + 1) ++ calls) where
  ok_iff := by
    rw [h.ok_iff, List.forall_mem_cons,
      and_iff_right (hordered.successes_first hcalls hretries hsucceeded)]
    exact forall₂_congr fun later hlater => by rw [hordered.successes_later hlater]
  ordered := by
    rw [executedStages_append, executedStages_tries, List.pairwise_append]
    refine ⟨List.pairwise_replicate.mpr (.inr le_rfl), h.ordered, ?_⟩
    intro a ha b hb
    rw [List.eq_of_mem_replicate ha]
    exact (index_lt_of_mem hordered hcalls b hb).le
  stops := h.stops.later _
  atLeastOnce := by
    intro other hother later hlater hlt
    rcases List.mem_cons.mp hother with rfl | hother
    · rw [hordered.attempts_first hcalls]
      exact n.succ_pos
    · rw [executedStages_append, executedStages_tries] at hlater
      rcases List.mem_append.mp hlater with hlater | hlater
      · rw [List.eq_of_mem_replicate hlater] at hlt
        exact absurd hlt (hordered.index_lt other hother).le.not_gt
      · rw [hordered.attempts_later hother]
        exact h.atLeastOnce other hother later hlater hlt
  atMost := by
    intro other hother
    rcases List.mem_cons.mp hother with rfl | hother
    · rw [hordered.attempts_first hcalls]
      exact hadmits
    · rw [hordered.attempts_later hother]
      exact h.atMost other hother
  compensated := by
    intro other hother hstopped hcompensate
    rw [compensations_append, compensations_tries, Nat.zero_add]
    rcases List.mem_cons.mp hother with rfl | hother
    · -- the run stops at a later stage
      rcases h.stops with ⟨-, hnone⟩ | ⟨-, later, hlater, hlast, -⟩
      · rw [hnone] at hstopped
        cases hstopped
      · have hlt := hordered.index_lt later hlater
        rw [hlast] at hstopped
        rw [Option.some.inj hstopped] at hlt
        exact absurd hlt (lt_irrefl _)
    · exact h.compensated other hother hstopped hcompensate

/-- The rest of an orderly run. -/
theorem Orderly.tail (hordered : Ordered (stage :: rest)) (hcalls : CallsOf rest calls)
    (hretries : stage.Retries w n) (hsucceeded : (stage.outcomeAt w n).succeeded = true)
    (hstops : Stops rest result calls)
    (h : Orderly (stage :: rest) result (stage.tries w (n + 1) ++ calls)) :
    Orderly rest result calls where
  ok_iff := by
    rw [h.ok_iff, List.forall_mem_cons,
      and_iff_right (hordered.successes_first hcalls hretries hsucceeded)]
    exact forall₂_congr fun later hlater => by rw [hordered.successes_later hlater]
  ordered := by
    have hall := h.ordered
    rw [executedStages_append, List.pairwise_append] at hall
    exact hall.2.1
  stops := hstops
  atLeastOnce := by
    intro other hother later hlater hlt
    have honce := h.atLeastOnce other (List.mem_cons_of_mem _ hother) later
      (by rw [executedStages_append]; exact List.mem_append_right _ hlater) hlt
    rw [hordered.attempts_later hother] at honce
    exact honce
  atMost := by
    intro other hother
    have hmost := h.atMost other (List.mem_cons_of_mem _ hother)
    rw [hordered.attempts_later hother] at hmost
    exact hmost
  compensated := by
    intro other hother hstopped hcompensate
    have honce := h.compensated other (List.mem_cons_of_mem _ hother) hstopped hcompensate
    rw [compensations_append, compensations_tries, Nat.zero_add] at honce
    exact honce

/-- A first stage that stops the run, and is compensated if it can be. -/
theorem Orderly.stop (hordered : Ordered (stage :: rest)) (hretries : stage.Retries w n)
    (hfailed : (stage.outcomeAt w n).succeeded = false)
    (hadmits : stage.maxAttempts.Admits (n + 1))
    (hresult : result.ok = false ∧ result.stoppedAt = some stage.name) :
    Orderly (stage :: rest) result (stage.tries w (n + 1) ++ compensation stage) where
  ok_iff := by
    rw [hresult.1]
    refine iff_of_false nofun fun hall => ?_
    have hfirst := hall stage List.mem_cons_self
    rw [successes_append, successes_tries_succ hretries, hfailed, successes_compensation] at hfirst
    cases hfirst
  ordered := by
    rw [executedStages_append, executedStages_tries, executedStages_compensation, List.append_nil]
    exact List.pairwise_replicate.mpr (.inr le_rfl)
  stops := stops_here executedStages_compensation hresult
  atLeastOnce := by
    intro other hother later hlater hlt
    rw [executedStages_append, executedStages_tries, executedStages_compensation,
      List.append_nil] at hlater
    rw [List.eq_of_mem_replicate hlater] at hlt
    rcases List.mem_cons.mp hother with rfl | hother
    · exact absurd hlt (lt_irrefl _)
    · exact absurd hlt (hordered.index_lt other hother).le.not_gt
  atMost := by
    intro other hother
    rw [attempts_append, attempts_compensation, Nat.add_zero]
    rcases List.mem_cons.mp hother with rfl | hother
    · rw [attempts_tries]
      exact hadmits
    · rw [attempts_eq_zero (hordered.tries_ne hother)]
      exact .inl (Nat.zero_le 1)
  compensated := by
    intro other hother hstopped hcompensate
    rw [hresult.2] at hstopped
    rcases List.mem_cons.mp hother with rfl | hother
    · rw [compensations_append, compensations_tries, compensations_compensation hcompensate]
    · have hlt := hordered.index_lt other hother
      rw [Option.some.inj hstopped] at hlt
      exact absurd hlt (lt_irrefl _)

end Cons

/-! ### The run -/

section Runs

variable {clock : Nat → Int} {stages : List (RepoMutationStageDefinition σ)} {s s' : Run σ}
  {fuel : Nat} {result : RepoMutationPipelineResult}

theorem callsOf_tries {stage : RepoMutationStageDefinition σ} {w : σ} {n : Nat} :
    CallsOf (stage :: stages) (stage.tries w n) :=
  fun _ hcall => ⟨stage, List.mem_cons_self, stage_of_mem_tries hcall⟩

theorem callsOf_compensation {stage : RepoMutationStageDefinition σ} :
    CallsOf (stage :: stages) (compensation stage) := by
  intro call hcall
  unfold compensation at hcall
  split at hcall
  · rw [List.mem_singleton.mp hcall]
    exact ⟨stage, List.mem_cons_self, rfl⟩
  · cases hcall

theorem CallsOf.append {calls calls' : List (StageCall σ)} (h : CallsOf stages calls)
    (h' : CallsOf stages calls') : CallsOf stages (calls ++ calls') := by
  intro call hcall
  rcases List.mem_append.mp hcall with hcall | hcall
  · exact h call hcall
  · exact h' call hcall

theorem CallsOf.cons {stage : RepoMutationStageDefinition σ} {calls : List (StageCall σ)}
    (h : CallsOf stages calls) : CallsOf (stage :: stages) calls := by
  intro call hcall
  obtain ⟨other, hother, hname⟩ := h call hcall
  exact ⟨other, List.mem_cons_of_mem _ hother, hname⟩

/-- The calls that a run adds are calls of its stages, and it ends where `Stops` says. -/
theorem runStages_calls (h : runStages clock fuel stages s = some (.ok result, s')) :
    ∃ new, s'.calls = s.calls ++ new ∧ CallsOf stages new ∧ Stops stages result new := by
  induction stages generalizing s with
  | nil =>
    cases h
    exact ⟨[], (List.append_nil _).symm, nofun, .inl ⟨rfl, rfl⟩⟩
  | cons stage rest ih =>
    cases firstStage_of_runStages h with
    | skipped hlimit hrest =>
      obtain ⟨new, hcalls, hof, hstops⟩ := ih hrest
      exact ⟨new, hcalls, hof.cons, hstops.later []⟩
    | @passed n s₁ hlast hsucceeded hthen hrest =>
      obtain ⟨new, hcalls, hof, hstops⟩ := ih hrest
      refine ⟨stage.tries s.world (n + 1) ++ new, ?_, callsOf_tries.append hof.cons,
        hstops.later _⟩
      rw [hcalls, hthen.calls_eq, List.append_assoc]
    | stopped hlast hfailed hcompensates hcalls hstopped =>
      exact ⟨_, hcalls, callsOf_tries.append callsOf_compensation,
        stops_here executedStages_compensation hstopped.of_ok⟩
    | @thrown n results hlast hfailed hthrows hcalls hend =>
      rcases hend with ⟨error, herror⟩ | ⟨hstopped, -⟩
      · cases herror
      · have hnone : executedStages (results.map (.compensated stage.name : _ → StageCall σ)) = [] := by
          refine List.filterMap_eq_nil_iff.mpr fun call hcall => ?_
          obtain ⟨answer, -, rfl⟩ := List.mem_map.mp hcall
          rfl
        refine ⟨_, hcalls, callsOf_tries.append fun call hcall => ?_,
          stops_here hnone hstopped.of_ok⟩
        obtain ⟨answer, -, rfl⟩ := List.mem_map.mp hcall
        exact ⟨stage, List.mem_cons_self, rfl⟩

/-- **Orderly runs have sound stages.** -/
theorem sound_of_orderly (hordered : Ordered stages) {new : List (StageCall σ)}
    (hrun : runStages clock fuel stages s = some (.ok result, s'))
    (hcalls : s'.calls = s.calls ++ new) (h : Orderly stages result new) :
    Sound stages s.world := by
  induction stages generalizing s new with
  | nil => trivial
  | cons stage rest ih =>
    cases firstStage_of_runStages hrun with
    | skipped hlimit hrest =>
      -- no call is one of the skipped stage
      obtain ⟨new', hcalls', hof, hstops⟩ := runStages_calls hrest
      obtain rfl : new = new' := List.append_cancel_left (hcalls.symm.trans hcalls')
      have hne := hordered.ne hof
      rcases hstops with ⟨hok, -⟩ | ⟨-, later, hlater, -, hlast⟩
      · have hone := h.ok_iff.mp hok stage List.mem_cons_self
        rw [successes_eq_zero hne] at hone
        cases hone
      · have honce := h.atLeastOnce stage List.mem_cons_self later.name
          (List.mem_of_getLast? hlast) (hordered.index_lt later hlater)
        rw [attempts_eq_zero hne] at honce
        cases honce
    | @passed n s₁ hlast hsucceeded hthen hrest =>
      obtain ⟨new', hcalls', hof, hstops⟩ := runStages_calls hrest
      have hnew : new = stage.tries s.world (n + 1) ++ new' := by
        rw [hthen.calls_eq, List.append_assoc] at hcalls'
        exact List.append_cancel_left (hcalls.symm.trans hcalls')
      subst hnew
      have hmost := h.atMost stage List.mem_cons_self
      rw [hordered.attempts_first hof] at hmost
      refine ⟨n, hlast, hmost, fun _ => ?_, fun hfailed => ?_⟩
      · rw [← hthen.world_eq]
        exact ih hordered.tail hrest hcalls'
          (h.tail hordered hof hlast.retries hsucceeded hstops)
      · rw [hsucceeded] at hfailed
        cases hfailed
    | @stopped n hlast hfailed hcompensates hcalls' hstopped =>
      have hnew := List.append_cancel_left (hcalls.symm.trans hcalls')
      have hmost := h.atMost stage List.mem_cons_self
      rw [hnew, attempts_append, attempts_tries, attempts_compensation] at hmost
      refine ⟨n, hlast, hmost, fun hsucceeded => ?_, fun _ => hcompensates⟩
      rw [hfailed] at hsucceeded
      cases hsucceeded
    | thrown hlast hfailed hthrows hcalls' hend =>
      rcases hend with ⟨error, herror⟩ | ⟨hstopped, htwice⟩
      · cases herror
      · have hnew := List.append_cancel_left (hcalls.symm.trans hcalls')
        have honce := h.compensated stage List.mem_cons_self hstopped.of_ok.2
          (isSome_of_not_compensates hthrows)
        rw [hnew, compensations_append, compensations_tries, compensations_map, htwice] at honce
        cases honce

variable (clock) in
/-- **Sound stages have orderly runs**, with enough fuel. -/
theorem orderly_of_sound {w : σ} (hordered : Ordered stages) (h : Sound stages w) :
    ∃ enough, ∀ fuel ≥ enough, ∀ s : Run σ, s.world = w → ∃ result s' new,
      runStages clock fuel stages s = some (.ok result, s') ∧
      s'.calls = s.calls ++ new ∧ CallsOf stages new ∧ Orderly stages result new ∧
      result.evidences = s'.evidences ∧ (s.Told → s'.Told) := by
  induction stages generalizing w with
  | nil =>
    refine ⟨0, fun fuel _ s _ => ⟨_, s, [], rfl, (List.append_nil _).symm, nofun, ?_, rfl, id⟩⟩
    exact
      { ok_iff := iff_of_true rfl nofun
        ordered := .nil
        stops := .inl ⟨rfl, rfl⟩
        atLeastOnce := nofun
        atMost := nofun
        compensated := nofun }
  | cons stage rest ih =>
    obtain ⟨n, hlast, hadmits, hpassed, hfailed⟩ := h
    cases hsucceeded : (stage.outcomeAt w n).succeeded with
    | true =>
      obtain ⟨enough, hrest⟩ := ih hordered.tail (hpassed hsucceeded)
      refine ⟨max enough (n + 1), fun fuel hfuel s hs => ?_⟩
      subst hs
      obtain ⟨done, hdone, hended⟩ := stageLoop_of_lastAttempt clock hlast
        ((le_max_right _ _).trans hfuel)
      cases hended with
      | @passed s₁ _ hthen =>
        obtain ⟨result, s', new, hrun, hcalls, hof, horderly, hevidences, htold⟩ :=
          hrest fuel ((le_max_left _ _).trans hfuel) s₁ hthen.world_eq
        refine ⟨result, s', stage.tries s.world (n + 1) ++ new, ?_, ?_,
          callsOf_tries.append hof.cons, horderly.cons hordered hof hlast.retries hsucceeded hadmits,
          hevidences, htold ∘ hthen.told⟩
        · rw [runStages, hdone]
          exact hrun
        · rw [hcalls, hthen.calls_eq, List.append_assoc]
      | stopped hfailed _ _ | rejected hfailed _ | recalled hfailed _ _ =>
        rw [hsucceeded] at hfailed
        cases hfailed
    | false =>
      refine ⟨n + 1, fun fuel hfuel s hs => ?_⟩
      subst hs
      obtain ⟨done, hdone, hended⟩ := stageLoop_of_lastAttempt clock hlast hfuel
      cases hended with
      | passed hpassed _ =>
        rw [hsucceeded] at hpassed
        cases hpassed
      | @stopped s₁ _ _ hthen =>
        refine ⟨{ ok := false, stoppedAt := some stage.name, evidences := s₁.evidences }, s₁,
          stage.tries s.world (n + 1) ++ compensation stage, ?_, hthen.calls_eq,
          callsOf_tries.append callsOf_compensation,
          Orderly.stop hordered hlast.retries hsucceeded hadmits ⟨rfl, rfl⟩, rfl, hthen.told⟩
        rw [runStages, hdone]
      | rejected _ hthrows | recalled _ hthrows _ => exact absurd (hfailed hsucceeded) hthrows

end Runs

/-! ### The theorem -/

/-- Stages with distinct names are put in a strict order. -/
theorem ordered_orderedStages {stages : List (RepoMutationStageDefinition σ)}
    (hdistinct : (stages.map RepoMutationStageDefinition.name).Nodup) :
    Ordered (orderedStages stages) := by
  have hnames : ((orderedStages stages).map RepoMutationStageDefinition.name).Nodup :=
    ((List.mergeSort_perm stages _).map _).nodup_iff.mpr hdistinct
  have hne : (orderedStages stages).Pairwise fun a b => a.name ≠ b.name :=
    List.pairwise_map.mp hnames
  refine ((sorted_orderedStages stages).and hne).imp fun ⟨hle, hname⟩ => ?_
  have hindex : _ ≠ _ := fun heq => hname (RepoMutationStageName.index_injective heq)
  exact lt_of_le_of_ne hle hindex

theorem orderly_congr {stages stages' : List (RepoMutationStageDefinition σ)}
    {result : RepoMutationPipelineResult} {calls : List (StageCall σ)}
    (hmem : ∀ stage, stage ∈ stages ↔ stage ∈ stages') (h : Orderly stages result calls) :
    Orderly stages' result calls where
  ok_iff := by
    rw [h.ok_iff]
    exact forall_congr' fun stage => imp_congr_left (hmem stage)
  ordered := h.ordered
  stops := by
    rcases h.stops with hok | ⟨hok, stage, hstage, hstopped⟩
    · exact .inl hok
    · exact .inr ⟨hok, stage, (hmem stage).mp hstage, hstopped⟩
  atLeastOnce := fun stage hstage => h.atLeastOnce stage ((hmem stage).mpr hstage)
  atMost := fun stage hstage => h.atMost stage ((hmem stage).mpr hstage)
  compensated := fun stage hstage => h.compensated stage ((hmem stage).mpr hstage)

/-- **The pipeline**: a run of stages with distinct names resolves, and does so correctly, exactly
when its stages behave. -/
theorem run_correct_iff (clock : Nat → Int) (stages : List (RepoMutationStageDefinition σ)) (w : σ)
    (hdistinct : (stages.map RepoMutationStageDefinition.name).Nodup) :
    (∃ fuel result s, run clock fuel stages w = some (.ok result, s) ∧
      Correct stages result s.calls) ↔ Sound (orderedStages stages) w := by
  have hordered := ordered_orderedStages hdistinct
  constructor
  · rintro ⟨fuel, result, s, hrun, hcorrect⟩
    exact sound_of_orderly hordered hrun rfl
      (orderly_congr (fun _ => mem_orderedStages.symm) hcorrect.orderly)
  · intro h
    obtain ⟨enough, hruns⟩ := orderly_of_sound clock hordered h
    obtain ⟨result, s, new, hrun, hcalls, -, horderly, hevidences, htold⟩ :=
      hruns enough le_rfl { world := w } rfl
    obtain rfl : s.calls = new := hcalls
    refine ⟨enough, result, s, hrun, ?_, orderly_congr (fun _ => mem_orderedStages) horderly⟩
    rw [hevidences]
    exact htold .nil

/-- A push that fails once with a failure that may be retried; the world counts the pushes. -/
def flakyPush : RepoMutationStageDefinition Nat where
  name := .pushPrepare
  timeoutMs := 500
  maxAttempts := .finite 2
  execute pushes :=
    (.settled (.ok (if pushes = 0
        then { ok := false, failure := some ⟨"PUSH_RETRY", "temporary", true⟩ }
        else { ok := true })) false, pushes + 1)

/-- A pull request that is refused, and a compensation that takes back the last push. -/
def refusedDraft : RepoMutationStageDefinition Nat where
  name := .prDraftPrepare
  timeoutMs := 500
  maxAttempts := .finite 3
  execute pushes :=
    (.settled (.ok { ok := false, failure := some ⟨"PR_REFUSED", "not permitted", false⟩ }) false,
      pushes)
  compensate := some fun pushes => (.ok (), pushes - 1)

/-- A last stage that would succeed. -/
def report : RepoMutationStageDefinition Nat where
  name := .finalize
  timeoutMs := 500
  maxAttempts := .finite 1
  execute pushes := (.settled (.ok { ok := true }) false, pushes)

/-- The push is tried again, the refused pull request is compensated once, and the run stops
there: it is correct, with the stages given in the opposite order. -/
theorem run_correct_iff_retry :
    (∃ fuel result s,
      run (fun _ => 0) fuel [report, refusedDraft, flakyPush] 0 = some (.ok result, s) ∧
        Correct [report, refusedDraft, flakyPush] result s.calls) ∧
    ∃ result s, run (fun _ => 0) 2 [report, refusedDraft, flakyPush] 0 = some (.ok result, s) ∧
      result.stoppedAt = some .prDraftPrepare ∧
      executedStages s.calls = [.pushPrepare, .pushPrepare, .prDraftPrepare] ∧
      compensations .prDraftPrepare s.calls = 1 := by
  have hsorted : [flakyPush, refusedDraft, report].Pairwise fun a b =>
      a.name.index < b.name.index := by decide
  have hordered : orderedStages [report, refusedDraft, flakyPush] =
      [flakyPush, refusedDraft, report] :=
    orderedStages_of_perm (List.reverse_perm [flakyPush, refusedDraft, report]) hsorted
  constructor
  · refine (run_correct_iff (fun _ => 0) [report, refusedDraft, flakyPush] 0 (by decide)).mpr ?_
    rw [hordered]
    -- the push succeeds at its second attempt, the pull request stops the run at its first
    have hpush : LastAttempt flakyPush 0 1 :=
      { exceeds := by decide
        retries := fun k hk => by
          obtain rfl := Nat.lt_one_iff.mp hk
          rfl
        finishes := .inl rfl }
    have hdraft : LastAttempt refusedDraft 2 0 :=
      { exceeds := by decide
        retries := fun k hk => absurd hk k.not_lt_zero
        finishes := .inl rfl }
    have htwo : ((2 : Nat) : ℚ) ≤ 2 := le_of_eq (by norm_num)
    have hcompensates : Compensates refusedDraft 2 := by
      intro compensate hgiven
      obtain rfl := Option.some.inj hgiven
      rfl
    exact ⟨1, hpush, .inr htwo,
      fun _ => ⟨0, hdraft, .inl le_rfl, nofun, fun _ => hcompensates⟩, nofun⟩
  · rw [run, hordered]
    exact ⟨_, _, rfl, rfl, rfl, rfl⟩

/-! A compensation that throws once. -/

/-- A patch that is rejected, and a compensation that fails when it is called first; the world
counts the compensations. -/
def rejectedPatch : RepoMutationStageDefinition Nat where
  name := .changeApply
  timeoutMs := 500
  maxAttempts := .finite 1
  execute compensations :=
    (.settled (.ok { ok := false, failure := some ⟨"PATCH_REJECTED", "patch rejected", false⟩ })
      false, compensations)
  compensate := some fun compensations =>
    (if compensations = 0 then .error (.error "index.lock exists") else .ok (), compensations + 1)

/-- The compensation is called again from the `catch` block. -/
theorem rejectedPatch_recalled :
    ¬ ∃ fuel result s, run (fun _ => 0) fuel [rejectedPatch] 0 = some (.ok result, s) ∧
      Correct [rejectedPatch] result s.calls := by
  rintro ⟨fuel, result, s, hrun, hcorrect⟩
  rw [run, orderedStages, List.mergeSort_singleton] at hrun
  have hordered : Ordered [rejectedPatch] := List.pairwise_singleton _ _
  obtain ⟨n, hlast, -, -, hcompensates⟩ := sound_of_orderly hordered hrun rfl hcorrect.orderly
  have hone : n = 0 := by
    by_contra hne
    have hretry := hlast.retries 0 (Nat.pos_of_ne_zero hne)
    cases hretry
  subst hone
  have hok := hcompensates rfl _ rfl
  cases hok

end RepoMutationPipeline

end AiOrchestrator
