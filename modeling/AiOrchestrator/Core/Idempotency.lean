import AiOrchestrator.Core.Errors
import AiOrchestrator.Lib.Dates
import AiOrchestrator.Lib.Json

/-!
# Idempotency keys and the dedup registry

`buildIdempotencyKey` (`packages/core/src/idempotency/build-idempotency-key.ts`)
names a side effect by its tenant, project, run, task, stage, attempt and a hash of
its input. The dedup registry (`packages/state/src/idempotency/dedup-registry.ts`)
holds one entry for each key: a pending or succeeded entry that has not expired
suppresses a second execution.
-/

namespace AiOrchestrator

/-- `BuildIdempotencyKeyInput`. -/
structure IdempotencyKeyInput where
  tenantId : String
  projectId : String
  runId : String
  taskId : String
  stage : String
  attempt : Nat
  sideEffectType : String
  normalizedInput : Json Nat

/-- `assertKeyPart`: the trimmed part, which is not empty and has no colon. -/
def assertKeyPart (value field : String) : Except RuntimeError String :=
  let normalized := Text.trim value
  if normalized = "" then
    .error (.plain s!"buildIdempotencyKey: {field} must be a non-empty string")
  else if Text.includes normalized ":" then
    .error (.plain s!"buildIdempotencyKey: {field} must not include ':'")
  else .ok normalized

/-- `canonicalize`: objects with their properties sorted by locale comparison. -/
def canonicalize (host : Host) (value : Json Nat) : String :=
  Json.canonical toString (fun a b => host.localeCompare a b != .gt) value

/-- **`buildIdempotencyKey`**. -/
def buildIdempotencyKey (host : Host) (input : IdempotencyKeyInput) :
    Except RuntimeError String := do
  let actionHash := host.sha256Hex (canonicalize host input.normalizedInput)
  let tenantId ← assertKeyPart input.tenantId "tenantId"
  let projectId ← assertKeyPart input.projectId "projectId"
  let runId ← assertKeyPart input.runId "runId"
  let taskId ← assertKeyPart input.taskId "taskId"
  let stage ← assertKeyPart input.stage "stage"
  let sideEffectType ← assertKeyPart input.sideEffectType "sideEffectType"
  pure (String.intercalate ":" [tenantId, projectId, runId, taskId, stage, toString input.attempt,
    s!"{sideEffectType}-{actionHash}"])

/-- A text that `assertKeyPart` accepts. -/
def KeyPartOk (value : String) : Prop :=
  Text.trim value ≠ "" ∧ Text.includes (Text.trim value) ":" = false

instance (value : String) : Decidable (KeyPartOk value) := by
  unfold KeyPartOk
  infer_instance

theorem assertKeyPart_of_ok {value field : String} (h : KeyPartOk value) :
    assertKeyPart value field = .ok (Text.trim value) := by
  simp [assertKeyPart, h.1, h.2]

theorem assertKeyPart_error_of_not {value : String} (field : String) (h : ¬ KeyPartOk value) :
    ∃ e, assertKeyPart value field = .error e := by
  unfold assertKeyPart
  dsimp only
  split
  · exact ⟨_, rfl⟩
  · next hne =>
    split
    · exact ⟨_, rfl⟩
    · next hcolon => exact absurd ⟨hne, by simpa using hcolon⟩ h

/-- The first part of a key that was built. -/
theorem part_of_ok {value field key : String} {next : String → Except RuntimeError String}
    (h : (assertKeyPart value field >>= next) = .ok key) :
    KeyPartOk value ∧ next (Text.trim value) = .ok key := by
  by_cases hok : KeyPartOk value
  · rw [assertKeyPart_of_ok hok] at h
    exact ⟨hok, h⟩
  · obtain ⟨e, he⟩ := assertKeyPart_error_of_not field hok
    rw [he] at h
    cases h

/-- An acceptable part has no colon. -/
theorem KeyPartOk.colon {value : String} (h : KeyPartOk value) :
    ':' ∉ (Text.trim value).toList := by
  intro hmem
  have hincludes : Text.includes (Text.trim value) ":" = true := by
    rw [Text.includes_iff]
    obtain ⟨before, after, heq⟩ := List.append_of_mem hmem
    exact ⟨before, after, by rw [heq]; simp⟩
  rw [h.2] at hincludes
  cases hincludes

/-- The parts of an idempotency key are all acceptable. -/
def IdempotencyKeyInput.Ok (input : IdempotencyKeyInput) : Prop :=
  KeyPartOk input.tenantId ∧ KeyPartOk input.projectId ∧ KeyPartOk input.runId ∧
    KeyPartOk input.taskId ∧ KeyPartOk input.stage ∧ KeyPartOk input.sideEffectType

instance (input : IdempotencyKeyInput) : Decidable input.Ok := by
  unfold IdempotencyKeyInput.Ok
  infer_instance

/-- **Acceptance of keys**: a key is built exactly when every part is acceptable. -/
theorem buildIdempotencyKey_isOk_iff {host : Host} {input : IdempotencyKeyInput} :
    (∃ key, buildIdempotencyKey host input = .ok key) ↔ input.Ok := by
  constructor
  · rintro ⟨key, hkey⟩
    obtain ⟨h₁, hkey⟩ := part_of_ok hkey
    obtain ⟨h₂, hkey⟩ := part_of_ok hkey
    obtain ⟨h₃, hkey⟩ := part_of_ok hkey
    obtain ⟨h₄, hkey⟩ := part_of_ok hkey
    obtain ⟨h₅, hkey⟩ := part_of_ok hkey
    obtain ⟨h₆, -⟩ := part_of_ok hkey
    exact ⟨h₁, h₂, h₃, h₄, h₅, h₆⟩
  · rintro ⟨h₁, h₂, h₃, h₄, h₅, h₆⟩
    simp only [buildIdempotencyKey, assertKeyPart_of_ok h₁, assertKeyPart_of_ok h₂,
      assertKeyPart_of_ok h₃, assertKeyPart_of_ok h₄, assertKeyPart_of_ok h₅,
      assertKeyPart_of_ok h₆]
    exact ⟨_, rfl⟩

/-- The texts before the first colon are determined. -/
theorem split_at_colon {a b x y : List Char} (ha : ':' ∉ a) (hb : ':' ∉ b)
    (h : a ++ ':' :: x = b ++ ':' :: y) : a = b ∧ x = y := by
  induction a generalizing b with
  | nil =>
    cases b with
    | nil => exact ⟨rfl, (List.cons.inj h).2⟩
    | cons c b => exact absurd (List.mem_cons.mpr (Or.inl (List.cons.inj h).1)) hb
  | cons c a ih =>
    cases b with
    | nil => exact absurd (List.mem_cons.mpr (Or.inl (List.cons.inj h).1.symm)) ha
    | cons d b =>
      obtain ⟨rfl, hrest⟩ := List.cons.inj h
      have htail := ih (fun hmem => ha (List.mem_cons_of_mem _ hmem))
        (fun hmem => hb (List.mem_cons_of_mem _ hmem)) hrest
      exact ⟨congrArg _ htail.1, htail.2⟩

/-- The parts of a key up to its stage, each closed by a colon. -/
theorem key_parts {host : Host} {input : IdempotencyKeyInput} {key : String}
    (h : buildIdempotencyKey host input = .ok key) :
    ∃ tenant project run task rest : List Char,
      (':' ∉ tenant ∧ ':' ∉ project ∧ ':' ∉ run ∧ ':' ∉ task ∧
        ':' ∉ (Text.trim input.stage).toList) ∧
      key.toList = tenant ++ ':' :: (project ++ ':' :: (run ++ ':' :: (task ++ ':' ::
        ((Text.trim input.stage).toList ++ ':' :: rest)))) := by
  obtain ⟨htenant, h⟩ := part_of_ok h
  obtain ⟨hproject, h⟩ := part_of_ok h
  obtain ⟨hrun, h⟩ := part_of_ok h
  obtain ⟨htask, h⟩ := part_of_ok h
  obtain ⟨hstage, h⟩ := part_of_ok h
  obtain ⟨htype, h⟩ := part_of_ok h
  obtain rfl := Except.ok.inj h
  refine ⟨_, _, _, _, (toString input.attempt).toList ++ ':' ::
    s!"{Text.trim input.sideEffectType}-{host.sha256Hex (canonicalize host input.normalizedInput)}".toList,
    ⟨htenant.colon, hproject.colon, hrun.colon, htask.colon, hstage.colon⟩, ?_⟩
  rw [String.toList_intercalate]
  simp [List.intercalate]

/-- Two keys that are equal are of one stage. -/
theorem stage_of_key {host host' : Host} {input input' : IdempotencyKeyInput} {key : String}
    (h : buildIdempotencyKey host input = .ok key)
    (h' : buildIdempotencyKey host' input' = .ok key) :
    Text.trim input.stage = Text.trim input'.stage := by
  obtain ⟨tenant, project, run, task, rest, ⟨ht, hp, hr, hk, hs⟩, hkey⟩ := key_parts h
  obtain ⟨tenant', project', run', task', rest', ⟨ht', hp', hr', hk', hs'⟩, hkey'⟩ := key_parts h'
  have heq := hkey.symm.trans hkey'
  have htail := (split_at_colon ht ht' heq).2
  have htail := (split_at_colon hp hp' htail).2
  have htail := (split_at_colon hr hr' htail).2
  have htail := (split_at_colon hk hk' htail).2
  exact String.toList_inj.mp (split_at_colon hs hs' htail).1

/-! ### The dedup registry

Which texts `Date.parse` reads besides those of `toISOString` is up to the platform: it is a parameter
(`dateParse`). -/

section Registry

variable (dateParse : String → Option Int)

/-- The registry entry has an expiry that has been reached. -/
def DedupRegistryRecord.expired (entry : DedupRegistryRecord) (now : Int) : Bool :=
  match dateParse entry.expiresAt with
  | some expiresAt => expiresAt ≤ now
  | none => false

/-- Whether the registry lets a key be reserved at a time: no entry, an expired one or
a failed one. -/
def dedupFree (registry : Record DedupRegistryRecord) (key : String) (now : Int) : Bool :=
  match registry.get? key with
  | none => true
  | some entry => entry.expired dateParse now || !(entry.status = .pending || entry.status = .succeeded)

/-- The entry of a new reservation. -/
def pendingEntry (key leaseOwner nowIso expiresAt : String) : DedupRegistryRecord :=
  { key, status := .pending, leaseOwner, createdAt := nowIso, updatedAt := nowIso, expiresAt
    policyDecisionId := none, evidenceId := none }

/-- A registry with a new entry. Rendering its expiry throws when that is not a date. -/
def enterReservation (registry : Record DedupRegistryRecord) (key leaseOwner nowIso : String)
    (expires : ℚ) : Except RuntimeError (Record DedupRegistryRecord × Option DedupRegistryRecord) :=
  match Text.isoString? expires with
  | some expiresAt => .ok (registry.set key (pendingEntry key leaseOwner nowIso expiresAt), none)
  | none => .error { cls := .rangeError, message := "Invalid time value" }

/-- **`reserveDedupEntry`**: the registry afterwards, and the entry that suppresses the
reservation if there is one. -/
def reserveDedupEntry (registry : Record DedupRegistryRecord)
    (key leaseOwner nowIso : String) (ttlMs : ℚ) :
    Except RuntimeError (Record DedupRegistryRecord × Option DedupRegistryRecord) :=
  match dateParse nowIso, registry.get? key with
  | some now, some current =>
    -- An expired entry is marked before it is replaced; nothing reads it in between.
    if current.expired dateParse now then enterReservation registry key leaseOwner nowIso (now + ttlMs)
    else if current.status = .pending ∨ current.status = .succeeded then
      .ok (registry, some current)
    else enterReservation registry key leaseOwner nowIso (now + ttlMs)
  | some now, none => enterReservation registry key leaseOwner nowIso (now + ttlMs)
  | none, some current =>
    if current.status = .pending ∨ current.status = .succeeded then .ok (registry, some current)
    else .error { cls := .rangeError, message := "Invalid time value" }
  | none, none => .error { cls := .rangeError, message := "Invalid time value" }

/-- `finalizeDedupEntry`: the outcome of a reserved side effect. -/
def finalizeDedupEntry (registry : Record DedupRegistryRecord) (key nowIso : String)
    (status : DedupStatus) (policyDecisionId : Option String)
    (evidenceId : Option String := none) : Record DedupRegistryRecord :=
  registry.modify key fun current =>
    { current with
      status := status
      updatedAt := nowIso
      policyDecisionId :=
        if truthy policyDecisionId then policyDecisionId else current.policyDecisionId
      evidenceId := if truthy evidenceId then evidenceId else current.evidenceId }

variable {dateParse}

/-- A free key is reserved, unless its expiry is not a date. -/
theorem reserveDedupEntry_of_free {registry : Record DedupRegistryRecord}
    {key leaseOwner nowIso : String} {ttlMs : ℚ} {now : Int} (hnow : dateParse nowIso = some now)
    (hfree : dedupFree dateParse registry key now = true) :
    reserveDedupEntry dateParse registry key leaseOwner nowIso ttlMs =
      enterReservation registry key leaseOwner nowIso (now + ttlMs) := by
  unfold dedupFree at hfree
  unfold reserveDedupEntry
  cases hget : registry.get? key with
  | none => simp only [hnow]
  | some current =>
    simp only [hget] at hfree
    simp only [hnow]
    by_cases hexp : current.expired dateParse now = true
    · rw [if_pos hexp]
    · have hstatus : ¬ (current.status = .pending ∨ current.status = .succeeded) := by
        simpa [hexp] using hfree
      rw [if_neg hexp, if_neg hstatus]

/-- A key that is not free suppresses the reservation and leaves the registry alone. -/
theorem reserveDedupEntry_of_not_free {registry : Record DedupRegistryRecord}
    {key leaseOwner nowIso : String} {ttlMs : ℚ} {now : Int} (hnow : dateParse nowIso = some now)
    (hfree : dedupFree dateParse registry key now = false) :
    ∃ current, registry.get? key = some current ∧
      reserveDedupEntry dateParse registry key leaseOwner nowIso ttlMs = .ok (registry, some current) := by
  unfold dedupFree at hfree
  unfold reserveDedupEntry
  cases hget : registry.get? key with
  | none => simp [hget] at hfree
  | some current =>
    simp only [hget, Bool.or_eq_false_iff, Bool.not_eq_false', Bool.or_eq_true,
      decide_eq_true_eq] at hfree
    simp only [hnow]
    rw [if_neg (by simp [hfree.1]), if_pos hfree.2]
    exact ⟨current, rfl, rfl⟩

/-- **What a reservation comes to**: it is suppressed by the entry of its key and leaves the
registry alone, or its key was free at its time and has a new entry. -/
theorem reserveDedupEntry_ok {registry reserved : Record DedupRegistryRecord}
    {key leaseOwner nowIso : String} {ttlMs : ℚ} {suppressedBy : Option DedupRegistryRecord}
    (h : reserveDedupEntry dateParse registry key leaseOwner nowIso ttlMs = .ok (reserved, suppressedBy)) :
    (∃ current, registry.get? key = some current ∧ suppressedBy = some current ∧
      reserved = registry) ∨
    ∃ now expiresAt, dateParse nowIso = some now ∧ dedupFree dateParse registry key now = true ∧
      Text.isoString? (now + ttlMs) = some expiresAt ∧ suppressedBy = none ∧
      reserved = registry.set key (pendingEntry key leaseOwner nowIso expiresAt) := by
  cases hnow : dateParse nowIso with
  -- At an instant that cannot be read no entry is expired: one that is pending or succeeded
  -- suppresses the call, and else it throws.
  | none =>
    refine Or.inl ?_
    unfold reserveDedupEntry at h
    cases hget : registry.get? key with
    | none =>
      simp only [hnow, hget] at h
      cases h
    | some current =>
      simp only [hnow, hget] at h
      split_ifs at h
      cases h
      exact ⟨current, rfl, rfl, rfl⟩
  | some now =>
    cases hfree : dedupFree dateParse registry key now with
    | true =>
      rw [reserveDedupEntry_of_free hnow hfree, enterReservation] at h
      cases hexpires : Text.isoString? (now + ttlMs) with
      | none =>
        rw [hexpires] at h
        cases h
      | some expiresAt =>
        rw [hexpires] at h
        cases h
        exact Or.inr ⟨now, expiresAt, rfl, hfree, hexpires, rfl, rfl⟩
    | false =>
      obtain ⟨current, hget, heq⟩ :=
        @reserveDedupEntry_of_not_free dateParse registry key leaseOwner nowIso ttlMs now hnow hfree
      rw [heq] at h
      cases h
      exact Or.inl ⟨current, hget, rfl, rfl⟩

end Registry

end AiOrchestrator
