import AiOrchestrator.Core.Idempotency
import AiOrchestrator.Lib.JsonValues
import AiOrchestrator.Lib.Numbers
import AiOrchestrator.Lib.Segments

/-!
# Idempotency keys of arbitrary inputs

`buildIdempotencyKey` (`packages/core/src/idempotency/build-idempotency-key.ts`) with any number as
attempt and any JSON value as input; `AiOrchestrator.buildIdempotencyKey` is the part of it that the
git lifecycle uses. `IdempotencyKeys.key_eq_iff` says when two keys are equal.
-/

namespace AiOrchestrator

/-- `BuildIdempotencyKeyInput` with a JSON value as its input. -/
structure BuildIdempotencyKeyInput where
  tenantId : String
  projectId : String
  runId : String
  taskId : String
  stage : String
  attempt : JsNumber
  sideEffectType : String
  normalizedInput : Json Decimal
  /-- No object of the input has two properties of one name. -/
  distinct : normalizedInput.Distinct

namespace IdempotencyKeys

/-- `canonicalize`. -/
def canonicalize (host : Host) (value : Json Decimal) : String :=
  Json.canonical Decimal.text (fun a b => host.localeCompare a b != .gt) value

/-- **`buildIdempotencyKey`**. -/
def buildIdempotencyKey (host : Host) (input : BuildIdempotencyKeyInput) :
    Except RuntimeError String := do
  if !input.attempt.isInteger || input.attempt.isNegative then
    throw (.plain "buildIdempotencyKey: attempt must be an integer >= 0")
  let canonicalInput := canonicalize host input.normalizedInput
  let actionHash := host.sha256Hex canonicalInput
  let tenantId ← assertKeyPart input.tenantId "tenantId"
  let projectId ← assertKeyPart input.projectId "projectId"
  let runId ← assertKeyPart input.runId "runId"
  let taskId ← assertKeyPart input.taskId "taskId"
  let stage ← assertKeyPart input.stage "stage"
  let sideEffectType ← assertKeyPart input.sideEffectType "sideEffectType"
  pure (String.intercalate ":" [tenantId, projectId, runId, taskId, stage, input.attempt.text,
    s!"{sideEffectType}-{actionHash}"])

/-- An attempt that is counted. -/
def AttemptOk (attempt : JsNumber) : Prop := attempt.isInteger = true ∧ attempt.isNegative = false

/-- **Accepted inputs**: the attempt is a whole number from zero on, and every part is acceptable. -/
def Accepted (input : BuildIdempotencyKeyInput) : Prop :=
  AttemptOk input.attempt ∧ KeyPartOk input.tenantId ∧ KeyPartOk input.projectId ∧
    KeyPartOk input.runId ∧ KeyPartOk input.taskId ∧ KeyPartOk input.stage ∧
    KeyPartOk input.sideEffectType

/-- The key of an accepted input. -/
def key (host : Host) (input : BuildIdempotencyKeyInput) : String :=
  String.intercalate ":" [Text.trim input.tenantId, Text.trim input.projectId, Text.trim input.runId,
    Text.trim input.taskId, Text.trim input.stage, input.attempt.text,
    s!"{Text.trim input.sideEffectType}-{host.sha256Hex (canonicalize host input.normalizedInput)}"]

/-- **When a key is built**, and which. -/
theorem buildIdempotencyKey_eq_ok_iff {host : Host} {input : BuildIdempotencyKeyInput} {built : String} :
    buildIdempotencyKey host input = .ok built ↔ Accepted input ∧ built = key host input := by
  by_cases hattempt : AttemptOk input.attempt
  · have hguard : (!input.attempt.isInteger || input.attempt.isNegative) = false := by
      rw [hattempt.1, hattempt.2]
      rfl
    constructor
    · intro h
      rw [buildIdempotencyKey, hguard] at h
      obtain ⟨htenant, h⟩ := part_of_ok h
      obtain ⟨hproject, h⟩ := part_of_ok h
      obtain ⟨hrun, h⟩ := part_of_ok h
      obtain ⟨htask, h⟩ := part_of_ok h
      obtain ⟨hstage, h⟩ := part_of_ok h
      obtain ⟨htype, h⟩ := part_of_ok h
      exact ⟨⟨hattempt, htenant, hproject, hrun, htask, hstage, htype⟩, (Except.ok.inj h).symm⟩
    · rintro ⟨⟨-, htenant, hproject, hrun, htask, hstage, htype⟩, rfl⟩
      simp only [buildIdempotencyKey, hguard, assertKeyPart_of_ok htenant, assertKeyPart_of_ok hproject,
        assertKeyPart_of_ok hrun, assertKeyPart_of_ok htask, assertKeyPart_of_ok hstage,
        assertKeyPart_of_ok htype]
      rfl
  · have hguard : (!input.attempt.isInteger || input.attempt.isNegative) = true := by
      rw [Bool.or_eq_true, Bool.not_eq_true']
      by_contra hneither
      rw [not_or, Bool.not_eq_false, Bool.not_eq_true] at hneither
      exact hattempt hneither
    refine iff_of_false (fun h => ?_) (fun h => hattempt h.1.1)
    rw [buildIdempotencyKey, hguard] at h
    cases h

/-- The characters of a number's text are those of a number. -/
theorem AttemptOk.finite {attempt : JsNumber} (h : AttemptOk attempt) :
    ∃ d, attempt = .finite d := by
  cases attempt with
  | finite d => exact ⟨d, rfl⟩
  | nan => exact absurd h.1 (by decide)
  | infinite negative => exact absurd h.1 Bool.false_ne_true

theorem AttemptOk.colon {attempt : JsNumber} (h : AttemptOk attempt) :
    ':' ∉ attempt.text.toList := by
  obtain ⟨d, rfl⟩ := h.finite
  intro hmem
  exact absurd (Decimal.numberText_text.chars d ':' hmem) (by decide)

/-- The characters of a key. -/
theorem toList_key (host : Host) (input : BuildIdempotencyKeyInput) :
    (key host input).toList =
      (Text.trim input.tenantId).toList ++ ':' :: ((Text.trim input.projectId).toList ++ ':' ::
        ((Text.trim input.runId).toList ++ ':' :: ((Text.trim input.taskId).toList ++ ':' ::
          ((Text.trim input.stage).toList ++ ':' :: (input.attempt.text.toList ++ ':' ::
            ((Text.trim input.sideEffectType).toList ++ '-' ::
              (host.sha256Hex (canonicalize host input.normalizedInput)).toList)))))) := by
  rw [key, String.toList_intercalate]
  simp [List.intercalate]
  rfl

/-- The order of `localeCompare` on names. -/
theorem keyOrder_localeCompare (host : Host) [Std.TransCmp host.localeCompare]
    [Std.LawfulEqCmp host.localeCompare] :
    Json.KeyOrder fun a b => host.localeCompare a b != .gt where
  total a b := by
    rw [@Std.OrientedCmp.eq_swap _ host.localeCompare _ a b]
    cases host.localeCompare b a <;> decide
  trans a b c h h' := by
    rw [bne_iff_ne] at h h' ⊢
    have hle := Std.TransCmp.isLE_trans (Ordering.isLE_iff_ne_gt.mpr h) (Ordering.isLE_iff_ne_gt.mpr h')
    exact Ordering.isLE_iff_ne_gt.mp hle
  antisymm a b h h' := by
    rw [bne_iff_ne] at h h'
    rw [@Std.OrientedCmp.eq_swap _ host.localeCompare _ b a] at h'
    refine @Std.LawfulEqCmp.eq_of_compare _ host.localeCompare _ _ _ ?_
    cases hcompare : host.localeCompare a b with
    | eq => rfl
    | gt => exact absurd hcompare h
    | lt =>
      rw [hcompare] at h'
      exact absurd rfl h'

/-- **The parts of a key can be told apart**, where digests have no hyphen. -/
theorem key_parts {host : Host} (hhyphen : ∀ text, '-' ∉ (host.sha256Hex text).toList)
    {input input' : BuildIdempotencyKeyInput} (h : Accepted input) (h' : Accepted input')
    (hkey : key host input = key host input') :
    Text.trim input.tenantId = Text.trim input'.tenantId ∧
      Text.trim input.projectId = Text.trim input'.projectId ∧
      Text.trim input.runId = Text.trim input'.runId ∧
      Text.trim input.taskId = Text.trim input'.taskId ∧
      Text.trim input.stage = Text.trim input'.stage ∧
      input.attempt.text = input'.attempt.text ∧
      Text.trim input.sideEffectType = Text.trim input'.sideEffectType ∧
      host.sha256Hex (canonicalize host input.normalizedInput) =
        host.sha256Hex (canonicalize host input'.normalizedInput) := by
  obtain ⟨hattempt, htenant, hproject, hrun, htask, hstage, htype⟩ := h
  obtain ⟨hattempt', htenant', hproject', hrun', htask', hstage', htype'⟩ := h'
  have hlist := congrArg String.toList hkey
  rw [toList_key, toList_key] at hlist
  obtain ⟨heq₁, hlist⟩ := split_at_colon htenant.colon htenant'.colon hlist
  obtain ⟨heq₂, hlist⟩ := split_at_colon hproject.colon hproject'.colon hlist
  obtain ⟨heq₃, hlist⟩ := split_at_colon hrun.colon hrun'.colon hlist
  obtain ⟨heq₄, hlist⟩ := split_at_colon htask.colon htask'.colon hlist
  obtain ⟨heq₅, hlist⟩ := split_at_colon hstage.colon hstage'.colon hlist
  obtain ⟨heq₆, hlist⟩ := split_at_colon hattempt.colon hattempt'.colon hlist
  have hdigest := Segments.last_eq_of_append_eq (hhyphen _) (hhyphen _) hlist
  rw [hdigest] at hlist
  have heq₇ := List.append_cancel_right hlist
  exact ⟨String.toList_inj.mp heq₁, String.toList_inj.mp heq₂, String.toList_inj.mp heq₃,
    String.toList_inj.mp heq₄, String.toList_inj.mp heq₅, String.toList_inj.mp heq₆,
    String.toList_inj.mp heq₇, String.toList_inj.mp hdigest⟩

/-- **Keys identify** parts, attempt and input. -/
theorem key_eq_iff {host : Host} [Std.TransCmp host.localeCompare] [Std.LawfulEqCmp host.localeCompare]
    (hsha : Function.Injective host.sha256Hex) (hhyphen : ∀ text, '-' ∉ (host.sha256Hex text).toList)
    {input input' : BuildIdempotencyKeyInput} (h : Accepted input) (h' : Accepted input') :
    key host input = key host input' ↔
      (Text.trim input.tenantId = Text.trim input'.tenantId ∧
        Text.trim input.projectId = Text.trim input'.projectId ∧
        Text.trim input.runId = Text.trim input'.runId ∧
        Text.trim input.taskId = Text.trim input'.taskId ∧
        Text.trim input.stage = Text.trim input'.stage ∧
        Text.trim input.sideEffectType = Text.trim input'.sideEffectType ∧
        input.attempt = input'.attempt) ∧
      input.normalizedInput.Same input'.normalizedInput := by
  have hcanonical : canonicalize host input.normalizedInput = canonicalize host input'.normalizedInput ↔
      input.normalizedInput.Same input'.normalizedInput :=
    Json.canonical_eq_iff Decimal.numberText_text (keyOrder_localeCompare host) input.distinct
  constructor
  · intro hkey
    obtain ⟨htenant, hproject, hrun, htask, hstage, hattempt, htype, hdigest⟩ :=
      key_parts hhyphen h h' hkey
    obtain ⟨d, hd⟩ := h.1.finite
    obtain ⟨d', hd'⟩ := h'.1.finite
    rw [hd, hd'] at hattempt
    refine ⟨⟨htenant, hproject, hrun, htask, hstage, htype, ?_⟩, hcanonical.mp (hsha hdigest)⟩
    rw [hd, hd', Decimal.text_injective hattempt]
  · rintro ⟨⟨htenant, hproject, hrun, htask, hstage, htype, hattempt⟩, hsame⟩
    rw [key, key, htenant, hproject, hrun, htask, hstage, htype, hattempt, hcanonical.mpr hsame]

end IdempotencyKeys

end AiOrchestrator
