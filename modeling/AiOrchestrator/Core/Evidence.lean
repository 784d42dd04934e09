import AiOrchestrator.Core.Encoding
import AiOrchestrator.Core.Errors
import Mathlib.Data.List.Chain
import Mathlib.Data.List.Infix

/-!
# Run-step evidence

`packages/core/src/evidence/run-step-evidence.ts` and
`packages/execution/src/evidence/append-run-step-evidence.ts`: an entry of the run-step log
carries a checksum of its identity, its status and the checksum of the entry before it
(`RunStepEvidence`), and `verifyRunStepEvidenceChain` recomputes both along a log.

The checksum of an entry determines its evidence where the hash is injective
(`computeRunStepChecksum_inj`). So the entries of a chain have different checksums, and a list of
entries of a chain that follow each other is a stretch of the chain (`infix_of_follows`).
-/

namespace AiOrchestrator

/-- An optional text, absent when it is empty. -/
def presentText (text : Option String) : Option String := if truthy text then text else none

/-! ### Checksums -/

/-- The properties that the checksum of an entry covers. -/
def evidencePayload (step : RunStepLogEntry) : List (String × Json Nat) :=
  [("evidenceId", .str step.id), ("tenantId", .str step.tenantId),
    ("projectId", .str step.projectId), ("runId", .str step.runId), ("stepId", .str step.stepId),
    ("attempt", .num step.attempt), ("status", .str step.status.text)] ++
  optionalText "policyDecisionId" (presentText step.policyDecisionId) ++
  [("idempotencyKey", .str step.idempotencyKey), ("createdAt", .str step.createdAt)] ++
  optionalText "payloadRef" (presentText step.payloadRef) ++
  optionalText "prevChecksum" (presentText step.prevChecksum) ++
  [("traceId", .str step.traceId)]

/-- `computeRunStepChecksum`. -/
def computeRunStepChecksum (host : Host) (step : RunStepLogEntry) : String :=
  host.sha256Hex <| Json.canonical toString (fun a b => a ≤ b) <| .obj (evidencePayload step)

/-- **The evidence of an entry**: what its checksum covers. -/
structure RunStepEvidence where
  evidenceId : String
  tenantId : String
  projectId : String
  runId : String
  stepId : String
  attempt : Nat
  status : RunStepStatus
  policyDecisionId : Option String
  idempotencyKey : String
  createdAt : String
  payloadRef : Option String
  prevChecksum : Option String
  traceId : String
deriving DecidableEq

def RunStepLogEntry.evidence (step : RunStepLogEntry) : RunStepEvidence where
  evidenceId := step.id
  tenantId := step.tenantId
  projectId := step.projectId
  runId := step.runId
  stepId := step.stepId
  attempt := step.attempt
  status := step.status
  policyDecisionId := presentText step.policyDecisionId
  idempotencyKey := step.idempotencyKey
  createdAt := step.createdAt
  payloadRef := presentText step.payloadRef
  prevChecksum := presentText step.prevChecksum
  traceId := step.traceId

theorem RunStepStatus.text_injective : Function.Injective RunStepStatus.text := by
  intro s t
  cases s <;> cases t <;> decide

theorem mem_optionalText {name key : String} {text : Option String} {value : Json Nat} :
    (key, value) ∈ optionalText name text ↔ key = name ∧ ∃ s, text = some s ∧ value = .str s := by
  cases text with
  | none => simp [optionalText]
  | some s => simp [optionalText]

/-- Properties that are texts and numbers are sorted as they are. -/
theorem sorted_evidencePayload (le : String → String → Bool) (step : RunStepLogEntry) :
    (evidencePayload step).map (fun p => (p.1, Json.sorted le p.2)) = evidencePayload step := by
  have hoptional : ∀ name text,
      (optionalText name text).map (fun p => (p.1, Json.sorted le p.2)) = optionalText name text := by
    intro name text
    cases text <;> rfl
  simp only [evidencePayload, List.map_append, hoptional]
  rfl

/-- The payload depends on the evidence only. -/
theorem evidencePayload_of_evidence {a b : RunStepLogEntry} (h : a.evidence = b.evidence) :
    evidencePayload a = evidencePayload b := by
  simp only [RunStepLogEntry.evidence, RunStepEvidence.mk.injEq] at h
  simp only [evidencePayload, h]

/-- The evidence of an entry can be read off its payload. -/
theorem evidence_of_perm {a b : RunStepLogEntry} (h : (evidencePayload a).Perm (evidencePayload b)) :
    a.evidence = b.evidence := by
  have htext : ∀ key s, (key, Json.str s) ∈ evidencePayload a → (key, Json.str s) ∈ evidencePayload b :=
    fun _ _ hmem => h.subset hmem
  have hback : ∀ key s, (key, Json.str s) ∈ evidencePayload b → (key, Json.str s) ∈ evidencePayload a :=
    fun _ _ hmem => h.symm.subset hmem
  have hid : a.id = b.id := by
    simpa [evidencePayload, mem_optionalText] using htext "evidenceId" a.id (by simp [evidencePayload])
  have htenant : a.tenantId = b.tenantId := by
    simpa [evidencePayload, mem_optionalText] using htext "tenantId" a.tenantId (by simp [evidencePayload])
  have hproject : a.projectId = b.projectId := by
    simpa [evidencePayload, mem_optionalText] using htext "projectId" a.projectId (by simp [evidencePayload])
  have hrun : a.runId = b.runId := by
    simpa [evidencePayload, mem_optionalText] using htext "runId" a.runId (by simp [evidencePayload])
  have hstep : a.stepId = b.stepId := by
    simpa [evidencePayload, mem_optionalText] using htext "stepId" a.stepId (by simp [evidencePayload])
  have hattempt : a.attempt = b.attempt := by
    have hmem := h.subset (show ("attempt", Json.num a.attempt) ∈ evidencePayload a by
      simp [evidencePayload])
    simpa [evidencePayload, mem_optionalText] using hmem
  have hstatus : a.status = b.status := by
    refine RunStepStatus.text_injective ?_
    simpa [evidencePayload, mem_optionalText] using
      htext "status" a.status.text (by simp [evidencePayload])
  have hkey : a.idempotencyKey = b.idempotencyKey := by
    simpa [evidencePayload, mem_optionalText] using htext "idempotencyKey" a.idempotencyKey (by simp [evidencePayload])
  have hcreated : a.createdAt = b.createdAt := by
    simpa [evidencePayload, mem_optionalText] using htext "createdAt" a.createdAt (by simp [evidencePayload])
  have htrace : a.traceId = b.traceId := by
    simpa [evidencePayload, mem_optionalText] using htext "traceId" a.traceId (by simp [evidencePayload])
  have hdecision : presentText a.policyDecisionId = presentText b.policyDecisionId := by
    refine Option.ext fun s => ⟨fun hs => ?_, fun hs => ?_⟩
    · simpa [evidencePayload, mem_optionalText] using
        htext "policyDecisionId" s (by simp [evidencePayload, mem_optionalText, hs])
    · simpa [evidencePayload, mem_optionalText] using
        hback "policyDecisionId" s (by simp [evidencePayload, mem_optionalText, hs])
  have hpayload : presentText a.payloadRef = presentText b.payloadRef := by
    refine Option.ext fun s => ⟨fun hs => ?_, fun hs => ?_⟩
    · simpa [evidencePayload, mem_optionalText] using
        htext "payloadRef" s (by simp [evidencePayload, mem_optionalText, hs])
    · simpa [evidencePayload, mem_optionalText] using
        hback "payloadRef" s (by simp [evidencePayload, mem_optionalText, hs])
  have hprev : presentText a.prevChecksum = presentText b.prevChecksum := by
    refine Option.ext fun s => ⟨fun hs => ?_, fun hs => ?_⟩
    · simpa [evidencePayload, mem_optionalText] using
        htext "prevChecksum" s (by simp [evidencePayload, mem_optionalText, hs])
    · simpa [evidencePayload, mem_optionalText] using
        hback "prevChecksum" s (by simp [evidencePayload, mem_optionalText, hs])
  simp only [RunStepLogEntry.evidence, hid, htenant, hproject, hrun, hstep, hattempt, hstatus,
    hdecision, hkey, hcreated, hpayload, hprev, htrace]

/-- **The checksum determines the evidence**, where the hash is injective. -/
theorem computeRunStepChecksum_inj {host : Host} (hsha : Function.Injective host.sha256Hex)
    {a b : RunStepLogEntry} :
    computeRunStepChecksum host a = computeRunStepChecksum host b ↔ a.evidence = b.evidence := by
  constructor
  · intro h
    have hperm := Json.perm_of_canonical Json.numberText_toString (hsha h)
    rw [sorted_evidencePayload, sorted_evidencePayload] at hperm
    exact evidence_of_perm hperm
  · intro h
    rw [computeRunStepChecksum, computeRunStepChecksum, evidencePayload_of_evidence h]

/-! ### Chains -/

/-- `AppendRunStepEvidenceInput`, but for the checksum of the entry before. -/
structure AppendRunStepEvidenceInput where
  evidenceId : String
  tenantId : String
  projectId : String
  runId : String
  stepId : String
  attempt : Nat
  taskId : Option String
  role : String
  tool : Option String
  input : String
  output : String
  status : RunStepStatus
  policyDecisionId : Option String
  idempotencyKey : String
  payloadRef : Option String
  traceId : String
  durationMs : Int
  createdAt : String

/-- The entry that `appendRunStepEvidence` makes and appends. -/
def appendedEntry (host : Host) (prevChecksum : Option String) (input : AppendRunStepEvidenceInput) :
    RunStepLogEntry :=
  let step : RunStepLogEntry :=
    { id := input.evidenceId, tenantId := input.tenantId, projectId := input.projectId
      runId := input.runId, stepId := input.stepId, attempt := input.attempt
      taskId := presentText input.taskId, role := input.role, tool := presentText input.tool
      input := input.input, output := input.output, status := input.status
      policyDecisionId := presentText input.policyDecisionId
      idempotencyKey := input.idempotencyKey, payloadRef := presentText input.payloadRef
      checksum := "", prevChecksum := presentText prevChecksum, traceId := input.traceId
      durationMs := input.durationMs.toNat, createdAt := input.createdAt }
  { step with checksum := computeRunStepChecksum host step }

/-- **A chain**: entries that are appended one after the other, each with the checksum of the one
before. -/
def appendedChain (host : Host) (prevChecksum : Option String) :
    List AppendRunStepEvidenceInput → List RunStepLogEntry
  | [] => []
  | input :: inputs =>
    let step := appendedEntry host prevChecksum input
    step :: appendedChain host (some step.checksum) inputs

/-! ### Verification -/

/-- `verifyRunStepEvidenceChain` on entries in order, after one with the checksum `prevChecksum`. -/
def verifyFrom (host : Host) (prevChecksum : Option String) : List RunStepLogEntry → List String
  | [] => []
  | step :: steps =>
    (if step.checksum ≠ computeRunStepChecksum host step then [s!"checksum_mismatch:{step.id}"]
      else []) ++
    (if truthy prevChecksum = true ∧ step.prevChecksum ≠ prevChecksum then
      [s!"chain_mismatch:{step.id}"] else []) ++
    verifyFrom host (some step.checksum) steps

/-- By its time stamp an entry is not after another one. -/
abbrev NotAfter (host : Host) (left right : RunStepLogEntry) : Prop :=
  host.localeCompare left.createdAt right.createdAt ≠ .gt

/-- The entries in the order of their time stamps. -/
def inTimeOrder (host : Host) (steps : List RunStepLogEntry) : List RunStepLogEntry :=
  steps.insertionSort (NotAfter host)

/-- **`verifyRunStepEvidenceChain`**. -/
def verifyRunStepEvidenceChain (host : Host) (steps : List RunStepLogEntry) : List String :=
  verifyFrom host none (inTimeOrder host steps)

/-- An entry whose checksum is the one of its evidence. -/
def Sealed (host : Host) (step : RunStepLogEntry) : Prop :=
  step.checksum = computeRunStepChecksum host step

/-- An entry carries the checksum of the one before it. -/
def Follows (before step : RunStepLogEntry) : Prop := step.prevChecksum = some before.checksum

section Verification

variable {host : Host} (hpresent : ∀ text, host.sha256Hex text ≠ "")

theorem truthy_iff {text : Option String} : truthy text = true ↔ ∃ s, text = some s ∧ s ≠ "" := by
  cases text with
  | none => simp [truthy]
  | some s => simp [truthy]

include hpresent in
theorem Sealed.truthy_checksum {step : RunStepLogEntry} (h : Sealed host step) :
    truthy (some step.checksum) = true := by
  refine truthy_iff.mpr ⟨_, rfl, ?_⟩
  rw [h]
  exact hpresent _

include hpresent in
/-- Behind a sealed entry a log is verified when its entries are sealed and follow each other. -/
theorem verifyFrom_eq_nil_iff {before : RunStepLogEntry} (hbefore : Sealed host before)
    {steps : List RunStepLogEntry} :
    verifyFrom host (some before.checksum) steps = [] ↔
      (∀ step ∈ steps, Sealed host step) ∧ (before :: steps).IsChain Follows := by
  induction steps generalizing before with
  | nil => simp [verifyFrom]
  | cons step steps ih =>
    have hhead : truthy (some before.checksum) = true := hbefore.truthy_checksum hpresent
    rw [verifyFrom, List.append_eq_nil_iff, List.append_eq_nil_iff, List.isChain_cons_cons]
    constructor
    · rintro ⟨⟨hsum, hprev⟩, htail⟩
      have hsealed : step.checksum = computeRunStepChecksum host step := by simpa using hsum
      have hfollows : step.prevChecksum = some before.checksum := by simpa [hhead] using hprev
      obtain ⟨hall, hchain⟩ := (ih hsealed).mp htail
      exact ⟨List.forall_mem_cons.mpr ⟨hsealed, hall⟩, hfollows, hchain⟩
    · rintro ⟨hall, hfollows, hchain⟩
      obtain ⟨hsealed, hall⟩ := List.forall_mem_cons.mp hall
      refine ⟨⟨if_neg (not_not_intro hsealed), if_neg fun h => h.2 hfollows⟩, ?_⟩
      exact (ih hsealed).mpr ⟨hall, hchain⟩

include hpresent in
/-- **What verification checks**: all entries are sealed, and in the order of their time stamps
they follow each other. -/
theorem verifyRunStepEvidenceChain_eq_nil_iff {steps : List RunStepLogEntry} :
    verifyRunStepEvidenceChain host steps = [] ↔
      (∀ step ∈ steps, Sealed host step) ∧ (inTimeOrder host steps).IsChain Follows := by
  have hmem : ∀ step, step ∈ inTimeOrder host steps ↔ step ∈ steps := fun step =>
    List.mem_insertionSort _
  simp only [← hmem]
  rw [verifyRunStepEvidenceChain]
  cases inTimeOrder host steps with
  | nil => simp [verifyFrom]
  | cons step tail =>
    rw [verifyFrom, List.append_eq_nil_iff, List.append_eq_nil_iff]
    constructor
    · rintro ⟨⟨hsum, -⟩, htail⟩
      have hsealed : step.checksum = computeRunStepChecksum host step := by simpa using hsum
      obtain ⟨hall, hchain⟩ := (verifyFrom_eq_nil_iff hpresent hsealed).mp htail
      exact ⟨List.forall_mem_cons.mpr ⟨hsealed, hall⟩, hchain⟩
    · rintro ⟨hall, hchain⟩
      obtain ⟨hsealed, hall⟩ := List.forall_mem_cons.mp hall
      refine ⟨⟨if_neg (not_not_intro hsealed), if_neg fun h => ?_⟩, ?_⟩
      · exact absurd h.1 (by decide)
      · exact (verifyFrom_eq_nil_iff hpresent hsealed).mpr ⟨hall, hchain⟩

end Verification

/-! ### The entries of a chain -/

/-- A log whose first entry follows none, and whose entries are sealed and follow each other. -/
structure Chained (host : Host) (steps : List RunStepLogEntry) : Prop where
  sealed : ∀ step ∈ steps, Sealed host step
  first : ∀ step ∈ steps.head?, step.prevChecksum = none
  follows : steps.IsChain Follows

section Chains

variable {host : Host} (hsha : Function.Injective host.sha256Hex)
  (hpresent : ∀ text, host.sha256Hex text ≠ "")

theorem sealed_appendedEntry (prevChecksum : Option String) (input : AppendRunStepEvidenceInput) :
    Sealed host (appendedEntry host prevChecksum input) := rfl

include hpresent in
theorem presentText_checksum {step : RunStepLogEntry} (h : Sealed host step) :
    presentText (some step.checksum) = some step.checksum :=
  if_pos (h.truthy_checksum hpresent)

include hpresent in
/-- **Appending makes chains.** -/
theorem chained_appendedChain (inputs : List AppendRunStepEvidenceInput) :
    Chained host (appendedChain host none inputs) := by
  have hsealed : ∀ prevChecksum inputs, ∀ step ∈ appendedChain host prevChecksum inputs,
      Sealed host step := by
    intro prevChecksum inputs
    induction inputs generalizing prevChecksum with
    | nil => simp [appendedChain]
    | cons input inputs ih =>
      exact List.forall_mem_cons.mpr ⟨sealed_appendedEntry prevChecksum input, ih _⟩
  have hfollows : ∀ (inputs : List AppendRunStepEvidenceInput) (before : RunStepLogEntry),
      Sealed host before →
        (before :: appendedChain host (some before.checksum) inputs).IsChain Follows := by
    intro inputs
    induction inputs with
    | nil => exact fun _ _ => List.IsChain.singleton _
    | cons input inputs ih =>
      intro before hbefore
      refine List.isChain_cons_cons.mpr ⟨?_, ih _ (sealed_appendedEntry _ input)⟩
      exact presentText_checksum hpresent hbefore
  refine ⟨hsealed none inputs, ?_, ?_⟩
  · cases inputs with
    | nil => simp [appendedChain]
    | cons input inputs =>
      intro step hstep
      rw [appendedChain, List.head?_cons, Option.mem_def, Option.some.injEq] at hstep
      rw [← hstep]
      rfl
  · cases inputs with
    | nil => exact List.IsChain.nil
    | cons input inputs => exact hfollows inputs _ (sealed_appendedEntry none input)

include hsha hpresent in
/-- An entry with the checksum of an entry that follows one follows one with that checksum. -/
theorem Follows.of_checksum_eq {before step other : RunStepLogEntry} (h : Follows before step)
    (hbefore : Sealed host before) (hstep : Sealed host step) (hother : Sealed host other)
    (heq : other.checksum = step.checksum) : Follows before other := by
  have hevidence : other.evidence = step.evidence := by
    rw [hother, hstep] at heq
    exact (computeRunStepChecksum_inj hsha).mp heq
  have hprev : presentText other.prevChecksum = some before.checksum := by
    rw [← presentText_checksum hpresent hbefore, ← h]
    exact congrArg RunStepEvidence.prevChecksum hevidence
  unfold presentText at hprev
  split at hprev
  · exact hprev
  · cases hprev

include hsha hpresent in
/-- **The entries of a chain have different checksums.** -/
theorem Chained.checksum_inj {steps : List RunStepLogEntry} (h : Chained host steps) :
    ∀ i j (hi : i < steps.length) (hj : j < steps.length),
      steps[i].checksum = steps[j].checksum → i = j := by
  have hlink := List.isChain_iff_getElem.mp h.follows
  have hsealed : ∀ k (hk : k < steps.length), Sealed host steps[k] := fun k hk =>
    h.sealed _ (List.getElem_mem hk)
  have hfirst : ∀ k (hk : k + 1 < steps.length) (h0 : 0 < steps.length),
      steps[0].checksum ≠ steps[k + 1].checksum := by
    intro k hk h0 heq
    have hfollows := (hlink k hk).of_checksum_eq hsha hpresent (hsealed _ _) (hsealed _ _)
      (hsealed 0 h0) heq
    have hnone := h.first steps[0] (by rw [List.head?_eq_getElem?, List.getElem?_eq_getElem h0]; rfl)
    rw [Follows, hnone] at hfollows
    cases hfollows
  intro i
  induction i with
  | zero =>
    intro j hi hj heq
    cases j with
    | zero => rfl
    | succ j => exact absurd heq (hfirst j hj hi)
  | succ i ih =>
    intro j hi hj heq
    cases j with
    | zero => exact absurd heq.symm (hfirst i hi hj)
    | succ j =>
      -- Both follow an entry, and by their checksums the same one.
      have hfollows := (hlink j hj).of_checksum_eq hsha hpresent (hsealed _ _) (hsealed _ _)
        (hsealed _ hi) heq
      have hprev := hlink i hi
      rw [Follows, hfollows] at hprev
      exact congrArg (· + 1) (ih j (by omega) (by omega) (Option.some.inj hprev).symm)

include hsha hpresent in
/-- Entries of a chain with one checksum are one entry. -/
theorem Chained.eq_of_checksum {steps : List RunStepLogEntry} (h : Chained host steps)
    {a b : RunStepLogEntry} (ha : a ∈ steps) (hb : b ∈ steps) (heq : a.checksum = b.checksum) :
    a = b := by
  obtain ⟨i, hi, rfl⟩ := List.mem_iff_getElem.mp ha
  obtain ⟨j, hj, rfl⟩ := List.mem_iff_getElem.mp hb
  have hij := h.checksum_inj hsha hpresent i j hi hj heq
  subst hij
  rfl

include hsha hpresent in
/-- **Entries of a chain that follow each other are a stretch of it.** -/
theorem Chained.infix_of_follows {steps kept : List RunStepLogEntry} (h : Chained host steps)
    (hkept : kept.IsChain Follows) (hmem : ∀ step ∈ kept, step ∈ steps) : kept <:+: steps := by
  induction kept with
  | nil => exact List.nil_infix
  | cons step kept ih =>
    obtain ⟨hstep, hrest⟩ := List.forall_mem_cons.mp hmem
    cases kept with
    | nil =>
      obtain ⟨before, after, rfl⟩ := List.append_of_mem hstep
      exact ⟨before, after, by simp⟩
    | cons next kept =>
      obtain ⟨hfollows, htail⟩ := List.isChain_cons_cons.mp hkept
      obtain ⟨before, after, heq⟩ := ih htail hrest
      rcases List.eq_nil_or_concat before with rfl | ⟨before, other, rfl⟩
      · -- The first entry of the chain follows none.
        have hnone := h.first next (by rw [← heq]; rfl)
        rw [Follows, hnone] at hfollows
        cases hfollows
      · have hsplit : steps = before ++ other :: next :: (kept ++ after) := by
          rw [← heq]
          simp
        have hother : Follows other next :=
          List.isChain_iff_forall_rel_of_append_cons_cons.mp h.follows hsplit
        have hchecksum : other.checksum = step.checksum := by
          rw [Follows, hfollows] at hother
          exact (Option.some.inj hother).symm
        have hsame := h.eq_of_checksum hsha hpresent (by rw [hsplit]; simp) hstep hchecksum
        subst hsame
        exact ⟨before, after, by rw [hsplit]; simp⟩

include hsha hpresent in
/-- The order of the time stamps of a verified chain is its own. -/
theorem Chained.inTimeOrder_eq {steps : List RunStepLogEntry} (h : Chained host steps)
    (hverify : verifyRunStepEvidenceChain host steps = []) : inTimeOrder host steps = steps := by
  have hchain := ((verifyRunStepEvidenceChain_eq_nil_iff hpresent).mp hverify).2
  have hinfix := h.infix_of_follows hsha hpresent hchain fun step hmem =>
    (List.mem_insertionSort _).mp hmem
  exact hinfix.eq_of_length (List.length_insertionSort _ _)

include hpresent in
/-- A chain in the order of its time stamps is verified. -/
theorem Chained.verify_of_inTimeOrder {steps : List RunStepLogEntry} (h : Chained host steps)
    (horder : inTimeOrder host steps = steps) : verifyRunStepEvidenceChain host steps = [] := by
  rw [verifyRunStepEvidenceChain_eq_nil_iff hpresent, horder]
  exact ⟨h.sealed, h.follows⟩

end Chains

/-! ### Modified logs -/

section Modified

variable {host : Host} (hsha : Function.Injective host.sha256Hex)
  (hpresent : ∀ text, host.sha256Hex text ≠ "")

include hpresent in
/-- An entry that is not sealed is found. -/
theorem verify_ne_nil_of_mem {steps : List RunStepLogEntry} {step : RunStepLogEntry}
    (hmem : step ∈ steps) (h : ¬ Sealed host step) : verifyRunStepEvidenceChain host steps ≠ [] :=
  fun hverify => h (((verifyRunStepEvidenceChain_eq_nil_iff hpresent).mp hverify).1 step hmem)

include hsha in
/-- **An entry whose evidence or checksum was changed, the other kept, is not sealed.** -/
theorem not_sealed_of_changed {step changed : RunStepLogEntry} (h : Sealed host step)
    (hchanged : changed.checksum = step.checksum ↔ changed.evidence ≠ step.evidence) :
    ¬ Sealed host changed := by
  intro hsealed
  rw [Sealed] at h hsealed
  rw [h, hsealed, computeRunStepChecksum_inj hsha] at hchanged
  by_cases heq : changed.evidence = step.evidence
  · exact hchanged.mp heq heq
  · exact heq (hchanged.mpr heq)

/-- A change that keeps the evidence and the checksum of an entry. -/
def SameEvidence (changed step : RunStepLogEntry) : Prop :=
  changed.evidence = step.evidence ∧ changed.checksum = step.checksum

theorem SameEvidence.createdAt {changed step : RunStepLogEntry} (h : SameEvidence changed step) :
    changed.createdAt = step.createdAt :=
  congrArg RunStepEvidence.createdAt h.1

theorem SameEvidence.sealed {changed step : RunStepLogEntry} (h : SameEvidence changed step)
    (hstep : Sealed host step) : Sealed host changed := by
  rw [Sealed, h.2, hstep, computeRunStepChecksum, computeRunStepChecksum,
    evidencePayload_of_evidence h.1]

include hpresent in
theorem SameEvidence.follows {before before' step step' : RunStepLogEntry}
    (hbefore : SameEvidence before' before) (hstep : SameEvidence step' step)
    (hsealed : Sealed host before) (h : Follows before step) : Follows before' step' := by
  have hprev : presentText step'.prevChecksum = some before.checksum := by
    rw [← presentText_checksum hpresent hsealed, ← h]
    exact congrArg RunStepEvidence.prevChecksum hstep.1
  rw [Follows, hbefore.2]
  unfold presentText at hprev
  split at hprev
  · exact hprev
  · cases hprev

variable [Std.TransCmp host.localeCompare]

instance : Std.Total (NotAfter host) where
  total left right := by
    rw [NotAfter, NotAfter, @Std.OrientedCmp.eq_swap _ host.localeCompare _ left.createdAt]
    cases host.localeCompare right.createdAt left.createdAt <;> simp

instance : IsTrans RunStepLogEntry (NotAfter host) where
  trans first second third h h' := by
    have hle := Ordering.isLE_iff_ne_gt.mpr h
    exact Ordering.isLE_iff_ne_gt.mp (Std.TransCmp.isLE_trans hle (Ordering.isLE_iff_ne_gt.mpr h'))

/-- Entries in order stay in order where some are left out. -/
theorem inTimeOrder_of_sublist {steps kept : List RunStepLogEntry}
    (hsteps : inTimeOrder host steps = steps) (hkept : kept.Sublist steps) :
    inTimeOrder host kept = kept := by
  have hsorted : steps.Pairwise (NotAfter host) := by
    rw [← hsteps]
    exact List.pairwise_insertionSort _ _
  exact (hsorted.sublist hkept).insertionSort_eq

include hsha hpresent in
/-- **Deletions** from a verified chain are found unless what is kept is a stretch of it. -/
theorem Chained.verify_sublist_iff {steps kept : List RunStepLogEntry} (h : Chained host steps)
    (hverify : verifyRunStepEvidenceChain host steps = []) (hkept : kept.Sublist steps) :
    verifyRunStepEvidenceChain host kept = [] ↔ kept <:+: steps := by
  have horder := inTimeOrder_of_sublist (h.inTimeOrder_eq hsha hpresent hverify) hkept
  rw [verifyRunStepEvidenceChain_eq_nil_iff hpresent, horder]
  constructor
  · rintro ⟨-, hfollows⟩
    exact h.infix_of_follows hsha hpresent hfollows fun step hmem => hkept.subset hmem
  · intro hinfix
    exact ⟨fun step hmem => h.sealed step (hkept.subset hmem), h.follows.infix hinfix⟩

include hsha hpresent in
/-- **Changes that keep the evidence and the checksum** of an entry are not found. -/
theorem Chained.verify_set {steps : List RunStepLogEntry} (h : Chained host steps)
    (hverify : verifyRunStepEvidenceChain host steps = []) {i : Nat} (hi : i < steps.length)
    {changed : RunStepLogEntry} (hchanged : SameEvidence changed steps[i]) :
    verifyRunStepEvidenceChain host (steps.set i changed) = [] := by
  have hsame : ∀ k (hk : k < (steps.set i changed).length) (hk' : k < steps.length),
      SameEvidence (steps.set i changed)[k] steps[k] := by
    intro k hk hk'
    rw [List.getElem_set]
    split
    · next hik =>
      subst hik
      exact hchanged
    · exact ⟨rfl, rfl⟩
  have hlength : (steps.set i changed).length = steps.length := List.length_set
  have hsealed : ∀ k (hk : k < steps.length), Sealed host steps[k] := fun k hk =>
    h.sealed _ (List.getElem_mem hk)
  have hsorted : steps.Pairwise (NotAfter host) := by
    rw [← h.inTimeOrder_eq hsha hpresent hverify]
    exact List.pairwise_insertionSort _ _
  have horder : inTimeOrder host (steps.set i changed) = steps.set i changed := by
    refine List.Pairwise.insertionSort_eq (List.pairwise_iff_getElem.mpr fun j k hj hk hjk => ?_)
    have hnot := List.pairwise_iff_getElem.mp hsorted j k (hlength ▸ hj) (hlength ▸ hk) hjk
    rw [NotAfter, (hsame j hj (hlength ▸ hj)).createdAt, (hsame k hk (hlength ▸ hk)).createdAt]
    exact hnot
  rw [verifyRunStepEvidenceChain_eq_nil_iff hpresent, horder]
  constructor
  · intro step hmem
    obtain ⟨k, hk, rfl⟩ := List.mem_iff_getElem.mp hmem
    exact (hsame k hk (hlength ▸ hk)).sealed (hsealed k (hlength ▸ hk))
  · refine List.isChain_iff_getElem.mpr fun k hk => ?_
    have hlink := List.isChain_iff_getElem.mp h.follows k (hlength ▸ hk)
    exact (hsame k (by omega) (by omega)).follows hpresent (hsame (k + 1) hk (by omega))
      (hsealed k (by omega)) hlink

end Modified

end AiOrchestrator
