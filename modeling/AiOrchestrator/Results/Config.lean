import AiOrchestrator.Core.ProjectConfig

/-!
# Layered configuration, leaf by leaf

Merging a layer spreads its field of each leaf over that of the layers below (`Leaf.field_merge`), and the
schema looks at each leaf on its own (`Leaf.parse_value`, `exists_projectConfigSchema`). So a leaf of the
effective configuration is what the layers show of it, which is what they define unless a layer hides it:
`resolveEffectiveConfig_correct_iff`. `perRun_lost` is a budget that a layer hides.
-/

namespace AiOrchestrator

namespace Config

open Overlay

/-! ### What merging does to a leaf -/

section Merging

variable {σ α : Type} {combine : σ → σ → σ}

/-- Merging a section, seen at one of its properties. -/
theorem bind_mergeSection {get : σ → Slot α} (hget : ∀ base override,
    get (combine base override) = spread (get base) (get override)) (base override : Option σ) :
    (mergeSection combine base override).bind get = spread (base.bind get) (override.bind get) := by
  cases override with
  | none => rfl
  | some override =>
    cases base with
    | none => exact (none_spread (get override)).symm
    | some base => exact hget base override

theorem mergeSection_assoc (hassoc : ∀ a b c, combine (combine a b) c = combine a (combine b c))
    (a b c : Option σ) :
    mergeSection combine (mergeSection combine a b) c = mergeSection combine a (mergeSection combine b c) := by
  cases c with
  | none => rfl
  | some c =>
    cases b with
    | none => cases a <;> rfl
    | some b =>
      cases a with
      | none => rfl
      | some a => exact congrArg some (hassoc a b c)

@[simp] theorem mergeSection_none (base : Option σ) : mergeSection combine base none = base := rfl

@[simp] theorem none_mergeSection (override : Option σ) :
    mergeSection combine none override = override := by
  cases override <;> rfl

end Merging

theorem tokens_mergeBudgetsOverride (base override : Option BudgetsConfigOverride) :
    (mergeBudgetsOverride base override).bind (·.tokens) =
      mergeSection TokenBudget.spreadOver (base.bind (·.tokens)) (override.bind (·.tokens)) := by
  cases override <;> rfl

theorem money_mergeBudgetsOverride (base override : Option BudgetsConfigOverride) :
    (mergeBudgetsOverride base override).bind (·.money) =
      mergeSection MoneyBudget.spreadOver (base.bind (·.money)) (override.bind (·.money)) := by
  cases override <;> rfl

/-- **Merging a layer, seen at a leaf**: its field is spread over the base's. -/
theorem Leaf.field_merge {α : Type} (leaf : Leaf α) (base : ProjectConfigOverride)
    (override : Option ProjectConfigOverride) :
    leaf.field (mergeConfigOverride base override) =
      spread (leaf.field base) (override.bind leaf.field) := by
  cases override with
  | none => rfl
  | some override =>
    cases leaf with
    | perRun | perTask | perDay =>
      simp only [Leaf.field, mergeConfigOverride, Option.bind_some, tokens_mergeBudgetsOverride]
      exact bind_mergeSection (fun _ _ => rfl) _ _
    | perRunUsdMicro | perTaskUsdMicro | perDayUsdMicro =>
      simp only [Leaf.field, mergeConfigOverride, Option.bind_some, money_mergeBudgetsOverride]
      exact bind_mergeSection (fun _ _ => rfl) _ _
    | modelRoutingRef =>
      simp only [Leaf.field, mergeConfigOverride, Option.bind_some]
      cases override.modelRoutingRef <;> rfl
    | _ => exact bind_mergeSection (fun _ _ => rfl) _ _

/-! ### Associativity -/

theorem WorkflowConfigOverride.spreadOver_assoc (a b c : WorkflowConfigOverride) :
    (a.spreadOver b).spreadOver c = a.spreadOver (b.spreadOver c) := by
  simp only [WorkflowConfigOverride.spreadOver, spread_assoc]

theorem ToolsConfigOverride.spreadOver_assoc (a b c : ToolsConfigOverride) :
    (a.spreadOver b).spreadOver c = a.spreadOver (b.spreadOver c) := by
  simp only [ToolsConfigOverride.spreadOver, spread_assoc]

theorem TokenBudget.spreadOver_assoc (a b c : TokenBudget) : (a.spreadOver b).spreadOver c = a.spreadOver (b.spreadOver c) := by
  simp only [TokenBudget.spreadOver, spread_assoc]

theorem MoneyBudget.spreadOver_assoc (a b c : MoneyBudget) : (a.spreadOver b).spreadOver c = a.spreadOver (b.spreadOver c) := by
  simp only [MoneyBudget.spreadOver, spread_assoc]

theorem mergeBudgetsOverride_assoc (a b c : Option BudgetsConfigOverride) :
    mergeBudgetsOverride (mergeBudgetsOverride a b) c =
      mergeBudgetsOverride a (mergeBudgetsOverride b c) := by
  cases c with
  | none => rfl
  | some c =>
    cases b with
    | none => simp [mergeBudgetsOverride]
    | some b =>
      simp only [mergeBudgetsOverride, Option.bind_some,
        mergeSection_assoc TokenBudget.spreadOver_assoc, mergeSection_assoc MoneyBudget.spreadOver_assoc]

/-- **Merging is associative.** -/
theorem mergeConfigOverride_assoc (base override : ProjectConfigOverride)
    (later : Option ProjectConfigOverride) :
    mergeConfigOverride (mergeConfigOverride base (some override)) later =
      mergeConfigOverride base (some (mergeConfigOverride override later)) := by
  cases later with
  | none => rfl
  | some later =>
    simp only [mergeConfigOverride, mergeSection_assoc WorkflowConfigOverride.spreadOver_assoc,
      mergeSection_assoc ToolsConfigOverride.spreadOver_assoc, mergeBudgetsOverride_assoc,
      Option.or_assoc]

/-! ### The schema, leaf by leaf -/

section Schema

variable {α : Type} {schema : α → Option α}

theorem required_eq_some_iff {slot : Slot α} {v : α} :
    required schema slot = some v ↔ ∃ raw, slot.join = some raw ∧ schema raw = some v :=
  Option.bind_eq_some_iff

/-- What `.optional()` makes of the value of a property. -/
theorem join_of_optional {slot slot' : Slot α} (h : optional schema slot = some slot') :
    (slot.join = none ∧ slot'.join = none) ∨
      ∃ raw v, slot.join = some raw ∧ schema raw = some v ∧ slot'.join = some v := by
  match slot with
  | none =>
    obtain rfl := Option.some.inj h
    exact Or.inl ⟨rfl, rfl⟩
  | some none =>
    obtain rfl := Option.some.inj h
    exact Or.inl ⟨rfl, rfl⟩
  | some (some raw) =>
    obtain ⟨v, hv, rfl⟩ := Option.map_eq_some_iff.mp h
    exact Or.inr ⟨raw, v, rfl, hv, rfl⟩

theorem exists_optional {slot : Slot α} (h : ∀ raw, slot.join = some raw → (schema raw).isSome = true) :
    ∃ slot', optional schema slot = some slot' := by
  match slot with
  | none => exact ⟨_, rfl⟩
  | some none => exact ⟨_, rfl⟩
  | some (some raw) =>
    obtain ⟨v, hv⟩ := Option.isSome_iff_exists.mp (h raw rfl)
    exact ⟨some (some v), by rw [optional, hv]; rfl⟩

end Schema

theorem workflowConfigSchema_eq_some_iff {raw : WorkflowConfigOverride} {workflow : WorkflowConfig} :
    workflowConfigSchema raw = some workflow ↔
      required positiveInt raw.maxStepsPerRun = some workflow.maxStepsPerRun ∧
      required nonnegativeInt raw.maxRetriesPerTask = some workflow.maxRetriesPerTask ∧
      required some raw.approvalGateMode = some workflow.approvalGateMode ∧
      required some raw.approvalRequiredActions = some workflow.approvalRequiredActions ∧
      required positiveInt raw.approvalBulkFileThreshold = some workflow.approvalBulkFileThreshold := by
  obtain ⟨steps, retries, mode, actions, threshold⟩ := workflow
  simp only [workflowConfigSchema, Option.bind_eq_bind, Option.bind_eq_some_iff, Option.pure_def,
    Option.some.injEq, WorkflowConfig.mk.injEq]
  constructor
  · rintro ⟨_, h1, _, h2, _, h3, _, h4, _, h5, rfl, rfl, rfl, rfl, rfl⟩
    exact ⟨h1, h2, h3, h4, h5⟩
  · rintro ⟨h1, h2, h3, h4, h5⟩
    exact ⟨_, h1, _, h2, _, h3, _, h4, _, h5, rfl, rfl, rfl, rfl, rfl⟩

theorem toolsConfigSchema_eq_some_iff {raw : ToolsConfigOverride} {tools : ToolsConfig} :
    toolsConfigSchema raw = some tools ↔
      required some raw.writeMode = some tools.writeMode ∧
      required trimmedTexts raw.allowedWritePaths = some tools.allowedWritePaths ∧
      required trimmedTexts raw.protectedWritePaths = some tools.protectedWritePaths ∧
      required trimmedTexts raw.allowedShellCommands = some tools.allowedShellCommands ∧
      required positiveInt raw.maxModifiedFiles = some tools.maxModifiedFiles := by
  obtain ⟨mode, allowed, writeProtected, commands, files⟩ := tools
  simp only [toolsConfigSchema, Option.bind_eq_bind, Option.bind_eq_some_iff, Option.pure_def,
    Option.some.injEq, ToolsConfig.mk.injEq]
  constructor
  · rintro ⟨_, h1, _, h2, _, h3, _, h4, _, h5, rfl, rfl, rfl, rfl, rfl⟩
    exact ⟨h1, h2, h3, h4, h5⟩
  · rintro ⟨h1, h2, h3, h4, h5⟩
    exact ⟨_, h1, _, h2, _, h3, _, h4, _, h5, rfl, rfl, rfl, rfl, rfl⟩

theorem tokenBudgetSchema_eq_some_iff {raw tokens : TokenBudget} :
    tokenBudgetSchema raw = some tokens ↔
      optional positiveInt raw.perRun = some tokens.perRun ∧
      optional positiveInt raw.perTask = some tokens.perTask ∧
      optional positiveInt raw.perDay = some tokens.perDay := by
  obtain ⟨perRun, perTask, perDay⟩ := tokens
  simp only [tokenBudgetSchema, Option.bind_eq_bind, Option.bind_eq_some_iff, Option.pure_def,
    Option.some.injEq, TokenBudget.mk.injEq]
  constructor
  · rintro ⟨_, h1, _, h2, _, h3, rfl, rfl, rfl⟩
    exact ⟨h1, h2, h3⟩
  · rintro ⟨h1, h2, h3⟩
    exact ⟨_, h1, _, h2, _, h3, rfl, rfl, rfl⟩

theorem moneyBudgetSchema_eq_some_iff {raw money : MoneyBudget} :
    moneyBudgetSchema raw = some money ↔
      optional nonnegativeInt raw.perRunUsdMicro = some money.perRunUsdMicro ∧
      optional nonnegativeInt raw.perTaskUsdMicro = some money.perTaskUsdMicro ∧
      optional nonnegativeInt raw.perDayUsdMicro = some money.perDayUsdMicro := by
  obtain ⟨perRun, perTask, perDay⟩ := money
  simp only [moneyBudgetSchema, Option.bind_eq_bind, Option.bind_eq_some_iff, Option.pure_def,
    Option.some.injEq, MoneyBudget.mk.injEq]
  constructor
  · rintro ⟨_, h1, _, h2, _, h3, rfl, rfl, rfl⟩
    exact ⟨h1, h2, h3⟩
  · rintro ⟨h1, h2, h3⟩
    exact ⟨_, h1, _, h2, _, h3, rfl, rfl, rfl⟩

/-- What stands outside the leaves is accepted. -/
def HeadAccepted (projectId : String) (version : JsNumber)
    (agents : Option (Record ProjectConfigOverride)) : Prop :=
  identifierSchema projectId ≠ none ∧ nonnegativeInt version ≠ none ∧
    optionally agentsSchema agents ≠ none

theorem projectConfigSchema_eq_some_iff {candidate : ProjectConfigCandidate} {config : ProjectConfig} :
    projectConfigSchema candidate = some config ↔
      identifierSchema candidate.projectId = some config.projectId ∧
      nonnegativeInt candidate.version = some config.version ∧
      candidate.workflow.bind workflowConfigSchema = some config.workflow ∧
      candidate.tools.bind toolsConfigSchema = some config.tools ∧
      (candidate.budgets.bind (·.tokens)).bind tokenBudgetSchema = some config.budgets.tokens ∧
      (candidate.budgets.bind (·.money)).bind moneyBudgetSchema = some config.budgets.money ∧
      optionally nonEmpty candidate.modelRoutingRef = some config.modelRoutingRef ∧
      optionally agentsSchema candidate.agents = some config.agents := by
  obtain ⟨id, version, workflow, tools, ⟨tokens, money⟩, ref, agents⟩ := config
  have hbudgets : candidate.budgets.bind budgetsConfigSchema = some { tokens, money } ↔
      (candidate.budgets.bind (·.tokens)).bind tokenBudgetSchema = some tokens ∧
        (candidate.budgets.bind (·.money)).bind moneyBudgetSchema = some money := by
    cases candidate.budgets with
    | none => simp
    | some budgets =>
      simp only [Option.bind_some, budgetsConfigSchema, Option.bind_eq_bind, Option.bind_eq_some_iff,
        Option.pure_def, Option.some.injEq, BudgetsConfig.mk.injEq]
      constructor
      · rintro ⟨_, h1, _, h2, rfl, rfl⟩
        exact ⟨h1, h2⟩
      · rintro ⟨h1, h2⟩
        exact ⟨_, h1, _, h2, rfl, rfl⟩
  rw [projectConfigSchema]
  simp only [Option.bind_eq_bind, Option.pure_def]
  constructor
  · intro h
    obtain ⟨_, h1, h⟩ := Option.bind_eq_some_iff.mp h
    obtain ⟨_, h2, h⟩ := Option.bind_eq_some_iff.mp h
    obtain ⟨_, h3, h⟩ := Option.bind_eq_some_iff.mp h
    obtain ⟨_, h4, h⟩ := Option.bind_eq_some_iff.mp h
    obtain ⟨_, h5, h⟩ := Option.bind_eq_some_iff.mp h
    obtain ⟨_, h6, h⟩ := Option.bind_eq_some_iff.mp h
    obtain ⟨_, h7, h⟩ := Option.bind_eq_some_iff.mp h
    obtain ⟨rfl, rfl, rfl, rfl, rfl, rfl, rfl⟩ := ProjectConfig.mk.inj (Option.some.inj h)
    obtain ⟨htokens, hmoney⟩ := hbudgets.mp h5
    exact ⟨h1, h2, h3, h4, htokens, hmoney, h6, h7⟩
  · rintro ⟨h1, h2, h3, h4, htokens, hmoney, h6, h7⟩
    rw [h1, Option.bind_some, h2, Option.bind_some, h3, Option.bind_some, h4, Option.bind_some,
      hbudgets.mpr ⟨htokens, hmoney⟩, Option.bind_some, h6, Option.bind_some, h7, Option.bind_some]

namespace Leaf

variable {α : Type} {leaf : Leaf α} {raw : ProjectConfigOverride}

theorem parse_of_required {slot : Slot α} {v : α} (hslot : leaf.field raw = slot)
    (h : required leaf.schema slot = some v) : leaf.parse (leaf.value raw) = some (some v) := by
  obtain ⟨value, hvalue, hv⟩ := required_eq_some_iff.mp h
  rw [Leaf.value, hslot, hvalue, Leaf.parse, hv]
  rfl

theorem parse_of_optional {slot slot' : Slot α} (hslot : leaf.field raw = slot)
    (hleaf : leaf.isRequired = false) (h : optional leaf.schema slot = some slot') :
    leaf.parse (leaf.value raw) = some slot'.join := by
  rw [Leaf.value, hslot]
  rcases join_of_optional h with ⟨hnone, hnone'⟩ | ⟨value, v, hvalue, hv, hv'⟩
  · rw [hnone, hnone', Leaf.parse, hleaf]
    rfl
  · rw [hvalue, hv', Leaf.parse, hv]
    rfl

/-- **An accepted configuration, seen at a leaf.** -/
theorem parse_value {candidate : ProjectConfigCandidate} {config : ProjectConfig}
    (h : projectConfigSchema candidate = some config) (leaf : Leaf α) :
    leaf.parse (leaf.value candidate.toProjectConfigOverride) =
      some (leaf.value (projectAsOverride config)) := by
  obtain ⟨-, -, hworkflow, htools, htokens, hmoney, href, -⟩ := projectConfigSchema_eq_some_iff.mp h
  obtain ⟨workflow, hpresent, hworkflow⟩ := Option.bind_eq_some_iff.mp hworkflow
  obtain ⟨tools, hpresent', htools⟩ := Option.bind_eq_some_iff.mp htools
  obtain ⟨tokens, hpresentt, htokens⟩ := Option.bind_eq_some_iff.mp htokens
  obtain ⟨money, hpresentm, hmoney⟩ := Option.bind_eq_some_iff.mp hmoney
  obtain ⟨hw1, hw2, hw3, hw4, hw5⟩ := workflowConfigSchema_eq_some_iff.mp hworkflow
  obtain ⟨ht1, ht2, ht3, ht4, ht5⟩ := toolsConfigSchema_eq_some_iff.mp htools
  obtain ⟨hk1, hk2, hk3⟩ := tokenBudgetSchema_eq_some_iff.mp htokens
  obtain ⟨hm1, hm2, hm3⟩ := moneyBudgetSchema_eq_some_iff.mp hmoney
  have hw : ∀ {β} (get : WorkflowConfigOverride → Slot β),
      candidate.workflow.bind get = get workflow := fun get => by rw [hpresent]; rfl
  have ht : ∀ {β} (get : ToolsConfigOverride → Slot β),
      candidate.tools.bind get = get tools := fun get => by rw [hpresent']; rfl
  have hk : ∀ {β} (get : TokenBudget → Slot β),
      (candidate.budgets.bind (·.tokens)).bind get = get tokens := fun get => by rw [hpresentt]; rfl
  have hm : ∀ {β} (get : MoneyBudget → Slot β),
      (candidate.budgets.bind (·.money)).bind get = get money := fun get => by rw [hpresentm]; rfl
  cases leaf with
  | maxStepsPerRun => exact parse_of_required (hw _) hw1
  | maxRetriesPerTask => exact parse_of_required (hw _) hw2
  | approvalGateMode => exact parse_of_required (hw _) hw3
  | approvalRequiredActions => exact parse_of_required (hw _) hw4
  | approvalBulkFileThreshold => exact parse_of_required (hw _) hw5
  | writeMode => exact parse_of_required (ht _) ht1
  | allowedWritePaths => exact parse_of_required (ht _) ht2
  | protectedWritePaths => exact parse_of_required (ht _) ht3
  | allowedShellCommands => exact parse_of_required (ht _) ht4
  | maxModifiedFiles => exact parse_of_required (ht _) ht5
  | perRun => exact parse_of_optional (hk _) rfl hk1
  | perTask => exact parse_of_optional (hk _) rfl hk2
  | perDay => exact parse_of_optional (hk _) rfl hk3
  | perRunUsdMicro => exact parse_of_optional (hm _) rfl hm1
  | perTaskUsdMicro => exact parse_of_optional (hm _) rfl hm2
  | perDayUsdMicro => exact parse_of_optional (hm _) rfl hm3
  | modelRoutingRef =>
    show Leaf.modelRoutingRef.parse (candidate.modelRoutingRef.map some).join =
      some (config.modelRoutingRef.map some).join
    cases hvalue : candidate.modelRoutingRef with
    | none =>
      rw [hvalue] at href
      rw [← Option.some.inj href]
      rfl
    | some ref =>
      rw [hvalue] at href
      obtain ⟨ref', hschema, heq⟩ := Option.map_eq_some_iff.mp href
      rw [← heq]
      exact congrArg (Option.map some) hschema

/-- What the schema answers is the value in its normal form. -/
theorem eq_normal_of_parse {leaf : Leaf α} {value parsed : Option α} (h : leaf.parse value = some parsed) :
    parsed = value.map leaf.normal := by
  cases value with
  | none =>
    rw [Leaf.parse] at h
    split_ifs at h
    exact (Option.some.inj h).symm
  | some v =>
    obtain ⟨v', hschema, rfl⟩ := Option.map_eq_some_iff.mp h
    have hpositive : ∀ {n n' : JsNumber}, positiveInt n = some n' → n' = n := by
      intro n n' h
      unfold positiveInt at h
      split_ifs at h
      exact (Option.some.inj h).symm
    have hnonnegative : ∀ {n n' : JsNumber}, nonnegativeInt n = some n' → n' = n := by
      intro n n' h
      unfold nonnegativeInt at h
      split_ifs at h
      exact (Option.some.inj h).symm
    have htrimmed : ∀ {texts texts' : List String}, trimmedTexts texts = some texts' →
        texts' = texts.map Text.trim := by
      intro texts texts' h
      unfold trimmedTexts at h
      dsimp only at h
      split_ifs at h
      exact (Option.some.inj h).symm
    refine congrArg some ?_
    cases leaf with
    | maxStepsPerRun | approvalBulkFileThreshold | maxModifiedFiles | perRun | perTask | perDay =>
      exact hpositive hschema
    | maxRetriesPerTask | perRunUsdMicro | perTaskUsdMicro | perDayUsdMicro =>
      exact hnonnegative hschema
    | allowedWritePaths | protectedWritePaths | allowedShellCommands => exact htrimmed hschema
    | approvalGateMode | approvalRequiredActions | writeMode => exact (Option.some.inj hschema).symm
    | modelRoutingRef =>
      change nonEmpty v = some v' at hschema
      unfold nonEmpty at hschema
      split_ifs at hschema
      exact (Option.some.inj hschema).symm

end Leaf

/-- **A candidate is accepted** if its head is and each of its leaves is. -/
theorem exists_projectConfigSchema {candidate : ProjectConfigCandidate}
    (hhead : HeadAccepted candidate.projectId candidate.version candidate.agents)
    (htokens : candidate.budgets.bind (·.tokens) ≠ none)
    (hmoney : candidate.budgets.bind (·.money) ≠ none)
    (hleaves : ∀ {α : Type} (leaf : Leaf α),
      leaf.parse (leaf.value candidate.toProjectConfigOverride) ≠ none) :
    ∃ config, projectConfigSchema candidate = some config := by
  obtain ⟨hid, hversion, hagents⟩ := hhead
  obtain ⟨projectId, hid⟩ := Option.ne_none_iff_exists'.mp hid
  obtain ⟨version, hversion⟩ := Option.ne_none_iff_exists'.mp hversion
  obtain ⟨agents, hagents⟩ := Option.ne_none_iff_exists'.mp hagents
  obtain ⟨tokens, htokens⟩ := Option.ne_none_iff_exists'.mp htokens
  obtain ⟨money, hmoney⟩ := Option.ne_none_iff_exists'.mp hmoney
  -- a leaf that is required has a value, and the schema takes it
  have hrequired : ∀ {α : Type} (leaf : Leaf α), leaf.isRequired = true →
      ∃ v, required leaf.schema (leaf.field candidate.toProjectConfigOverride) = some v := by
    intro α leaf hreq
    have hparse := hleaves leaf
    rw [Leaf.value] at hparse
    cases hvalue : (leaf.field candidate.toProjectConfigOverride).join with
    | none =>
      rw [hvalue, Leaf.parse, if_pos hreq] at hparse
      exact absurd rfl hparse
    | some raw =>
      rw [hvalue, Leaf.parse, Ne, Option.map_eq_none_iff] at hparse
      obtain ⟨v, hv⟩ := Option.ne_none_iff_exists'.mp hparse
      exact ⟨v, required_eq_some_iff.mpr ⟨raw, hvalue, hv⟩⟩
  have hoptional : ∀ {α : Type} (leaf : Leaf α),
      ∃ slot, optional leaf.schema (leaf.field candidate.toProjectConfigOverride) = some slot := by
    intro α leaf
    refine exists_optional fun raw hraw => ?_
    have hparse := hleaves leaf
    rw [Leaf.value, hraw, Leaf.parse, Ne, Option.map_eq_none_iff] at hparse
    exact Option.isSome_iff_ne_none.mpr hparse
  have hpresent : ∀ {σ : Type} {get : σ → Slot JsNumber} {section_ : Option σ} {v : JsNumber}
      {schema : JsNumber → Option JsNumber}, required schema (section_.bind get) = some v →
        ∃ raw, section_ = some raw := by
    intro σ get section_ v schema h
    cases section_ with
    | none => cases h
    | some raw => exact ⟨raw, rfl⟩
  obtain ⟨steps, hsteps⟩ := hrequired .maxStepsPerRun rfl
  obtain ⟨workflow, hworkflow⟩ := hpresent hsteps
  obtain ⟨files, hfiles⟩ := hrequired .maxModifiedFiles rfl
  obtain ⟨tools, htools⟩ := hpresent hfiles
  have hw : ∀ {β : Type} {get : WorkflowConfigOverride → Slot β} {schema : β → Option β} {v : β},
      required schema (candidate.workflow.bind get) = some v →
        required schema (get workflow) = some v := fun h => by rwa [hworkflow] at h
  have ht : ∀ {β : Type} {get : ToolsConfigOverride → Slot β} {schema : β → Option β} {v : β},
      required schema (candidate.tools.bind get) = some v →
        required schema (get tools) = some v := fun h => by rwa [htools] at h
  have hk : ∀ {β : Type} {get : TokenBudget → Slot β} {schema : β → Option β} {slot : Slot β},
      optional schema ((candidate.budgets.bind (·.tokens)).bind get) = some slot →
        optional schema (get tokens) = some slot := fun h => by rwa [htokens] at h
  have hm : ∀ {β : Type} {get : MoneyBudget → Slot β} {schema : β → Option β} {slot : Slot β},
      optional schema ((candidate.budgets.bind (·.money)).bind get) = some slot →
        optional schema (get money) = some slot := fun h => by rwa [hmoney] at h
  obtain ⟨retries, hretries⟩ := hrequired .maxRetriesPerTask rfl
  obtain ⟨mode, hmode⟩ := hrequired .approvalGateMode rfl
  obtain ⟨actions, hactions⟩ := hrequired .approvalRequiredActions rfl
  obtain ⟨threshold, hthreshold⟩ := hrequired .approvalBulkFileThreshold rfl
  obtain ⟨writeMode, hwriteMode⟩ := hrequired .writeMode rfl
  obtain ⟨allowed, hallowed⟩ := hrequired .allowedWritePaths rfl
  obtain ⟨writeProtected, hwriteProtected⟩ := hrequired .protectedWritePaths rfl
  obtain ⟨commands, hcommands⟩ := hrequired .allowedShellCommands rfl
  obtain ⟨perRun, hperRun⟩ := hoptional .perRun
  obtain ⟨perTask, hperTask⟩ := hoptional .perTask
  obtain ⟨perDay, hperDay⟩ := hoptional .perDay
  obtain ⟨perRunUsd, hperRunUsd⟩ := hoptional .perRunUsdMicro
  obtain ⟨perTaskUsd, hperTaskUsd⟩ := hoptional .perTaskUsdMicro
  obtain ⟨perDayUsd, hperDayUsd⟩ := hoptional .perDayUsdMicro
  have hworkflow' : workflowConfigSchema workflow = some ⟨steps, retries, mode, actions, threshold⟩ :=
    workflowConfigSchema_eq_some_iff.mpr
      ⟨hw hsteps, hw hretries, hw hmode, hw hactions, hw hthreshold⟩
  have htools' : toolsConfigSchema tools =
      some ⟨writeMode, allowed, writeProtected, commands, files⟩ :=
    toolsConfigSchema_eq_some_iff.mpr
      ⟨ht hwriteMode, ht hallowed, ht hwriteProtected, ht hcommands, ht hfiles⟩
  have htokens' : tokenBudgetSchema tokens = some ⟨perRun, perTask, perDay⟩ :=
    tokenBudgetSchema_eq_some_iff.mpr ⟨hk hperRun, hk hperTask, hk hperDay⟩
  have hmoney' : moneyBudgetSchema money = some ⟨perRunUsd, perTaskUsd, perDayUsd⟩ :=
    moneyBudgetSchema_eq_some_iff.mpr ⟨hm hperRunUsd, hm hperTaskUsd, hm hperDayUsd⟩
  have href : ∃ ref, optionally nonEmpty candidate.modelRoutingRef = some ref := by
    have hparse := hleaves .modelRoutingRef
    cases hvalue : candidate.modelRoutingRef with
    | none => exact ⟨none, rfl⟩
    | some ref =>
      simp only [Leaf.value, Leaf.field, hvalue, Option.map_some, Option.join_some, Leaf.parse,
        Leaf.schema, ne_eq, Option.map_eq_none_iff] at hparse
      obtain ⟨ref', href'⟩ := Option.ne_none_iff_exists'.mp hparse
      exact ⟨some ref', by rw [optionally, href']; rfl⟩
  obtain ⟨ref, href⟩ := href
  let config : ProjectConfig :=
    { projectId, version
      workflow := ⟨steps, retries, mode, actions, threshold⟩
      tools := ⟨writeMode, allowed, writeProtected, commands, files⟩
      budgets := { tokens := ⟨perRun, perTask, perDay⟩, money := ⟨perRunUsd, perTaskUsd, perDayUsd⟩ }
      modelRoutingRef := ref, agents }
  exact ⟨config, projectConfigSchema_eq_some_iff.mpr ⟨hid, hversion,
    Option.bind_eq_some_iff.mpr ⟨workflow, hworkflow, hworkflow'⟩,
    Option.bind_eq_some_iff.mpr ⟨tools, htools, htools'⟩,
    Option.bind_eq_some_iff.mpr ⟨tokens, htokens, htokens'⟩,
    Option.bind_eq_some_iff.mpr ⟨money, hmoney, hmoney'⟩, href, hagents⟩⟩

/-! ### The layers of a configuration -/

section Layers

variable (instanceLayer : Option ProjectConfigOverride) (project : ProjectConfig)
  (agent run : Option ProjectConfigOverride)

/-- The layers, most specific first. -/
def layers : List (Option ProjectConfigOverride) :=
  [run, agent, some (projectAsOverride project), instanceLayer, some defaultProjectConfigOverride]

/-- The fields of a leaf in the layers. -/
def Leaf.slots {α : Type} (leaf : Leaf α) (layers : List (Option ProjectConfigOverride)) :
    List (Slot α) :=
  layers.map fun layer => layer.bind leaf.field

/-- The merged layers. -/
def effectiveOverride : ProjectConfigOverride :=
  mergeConfigOverride
    (mergeConfigOverride
      (mergeConfigOverride (mergeConfigOverride defaultProjectConfigOverride instanceLayer)
        (some (projectAsOverride project)))
      agent)
    run

theorem value_effectiveOverride {α : Type} (leaf : Leaf α) :
    leaf.value (effectiveOverride instanceLayer project agent run) =
      shown (leaf.slots (layers instanceLayer project agent run)) := by
  rw [Leaf.value, effectiveOverride, Leaf.field_merge, Leaf.field_merge, Leaf.field_merge,
    Leaf.field_merge, shown, Leaf.slots, layers]
  simp only [List.map_cons, List.map_nil, Option.bind_some]
  rw [← findSome?_spread, ← findSome?_spread, ← findSome?_spread, ← findSome?_spread, spread_assoc,
    spread_assoc, spread_assoc]
  refine congrArg Option.join ?_
  generalize spread _ _ = slot
  cases slot <;> rfl

theorem resolveEffectiveConfig_eq_ok_iff {config : ProjectConfig} :
    resolveEffectiveConfig instanceLayer project agent run = .ok config ↔
      projectConfigSchema
        { effectiveOverride instanceLayer project agent run with
          projectId := project.projectId, version := project.version, agents := project.agents } =
        some config := by
  rw [resolveEffectiveConfig, effectiveOverride]
  dsimp only
  split
  · next config' hschema =>
    rw [hschema]
    exact ⟨fun h => congrArg some (Except.ok.inj h), fun h => congrArg Except.ok (Option.some.inj h)⟩
  · next hschema =>
    rw [hschema]
    exact ⟨fun h => (by cases h), fun h => (by cases h)⟩

variable {instanceLayer project agent run}

/-- The leaves of the result: what the layers show, in normal form. -/
theorem value_of_resolve {config : ProjectConfig}
    (h : resolveEffectiveConfig instanceLayer project agent run = .ok config) {α : Type}
    (leaf : Leaf α) :
    leaf.value (projectAsOverride config) =
      (shown (leaf.slots (layers instanceLayer project agent run))).map leaf.normal := by
  have hschema := (resolveEffectiveConfig_eq_ok_iff instanceLayer project agent run).mp h
  have hparse := Leaf.parse_value hschema leaf
  rw [← value_effectiveOverride]
  exact Leaf.eq_normal_of_parse hparse

theorem mergeSection_ne_none {σ : Type} {combine : σ → σ → σ} {base : Option σ} (h : base ≠ none)
    (override : Option σ) : mergeSection combine base override ≠ none := by
  cases override with
  | none => exact h
  | some override =>
    cases base with
    | none => exact absurd rfl h
    | some base => exact Option.some_ne_none _

/-- The sections of the budgets are never lost. -/
theorem budgets_mergeConfigOverride {base : ProjectConfigOverride}
    (h : base.budgets.bind (·.tokens) ≠ none ∧ base.budgets.bind (·.money) ≠ none)
    (override : Option ProjectConfigOverride) :
    (mergeConfigOverride base override).budgets.bind (·.tokens) ≠ none ∧
      (mergeConfigOverride base override).budgets.bind (·.money) ≠ none := by
  cases override with
  | none => exact h
  | some override =>
    rw [mergeConfigOverride, tokens_mergeBudgetsOverride, money_mergeBudgetsOverride]
    exact ⟨mergeSection_ne_none h.1 _, mergeSection_ne_none h.2 _⟩

/-- **When `resolveEffectiveConfig` answers**: the head is accepted, and what the layers show at each
leaf is. -/
theorem exists_resolve_iff :
    (∃ config, resolveEffectiveConfig instanceLayer project agent run = .ok config) ↔
      HeadAccepted project.projectId project.version project.agents ∧
        ∀ {α : Type} (leaf : Leaf α),
          leaf.parse (shown (leaf.slots (layers instanceLayer project agent run))) ≠ none := by
  simp only [resolveEffectiveConfig_eq_ok_iff, ← value_effectiveOverride]
  constructor
  · rintro ⟨config, hconfig⟩
    have hparse := fun {α : Type} (leaf : Leaf α) => Leaf.parse_value hconfig leaf
    obtain ⟨hid, hversion, -, -, -, -, -, hagents⟩ := projectConfigSchema_eq_some_iff.mp hconfig
    refine ⟨⟨?_, ?_, ?_⟩, fun leaf => ?_⟩
    · exact Option.ne_none_iff_exists'.mpr ⟨_, hid⟩
    · exact Option.ne_none_iff_exists'.mpr ⟨_, hversion⟩
    · exact Option.ne_none_iff_exists'.mpr ⟨_, hagents⟩
    · exact Option.ne_none_iff_exists'.mpr ⟨_, hparse leaf⟩
  · rintro ⟨hhead, hleaves⟩
    have hdefault : defaultProjectConfigOverride.budgets.bind (·.tokens) ≠ none ∧
        defaultProjectConfigOverride.budgets.bind (·.money) ≠ none :=
      ⟨Option.some_ne_none _, Option.some_ne_none _⟩
    have hbudgets := budgets_mergeConfigOverride (budgets_mergeConfigOverride
      (budgets_mergeConfigOverride (budgets_mergeConfigOverride hdefault instanceLayer)
        (some (projectAsOverride project))) agent) run
    exact exists_projectConfigSchema hhead hbudgets.1 hbudgets.2 hleaves

end Layers

/-! ### The law of the layers -/

/-- A leaf of the result follows the law exactly if nothing hides it and its value is trimmed. -/
theorem map_normal_eq_defined_iff {α : Type} (leaf : Leaf α) (slots : List (Slot α)) :
    (shown slots).map leaf.normal = defined slots ↔
      ¬ Hidden slots ∧ ∀ v, defined slots = some v → leaf.normal v = v := by
  constructor
  · intro h
    have hvisible : ¬ Hidden slots := by
      intro hhidden
      rw [hhidden.shown_eq_none] at h
      exact hhidden.2 h.symm
    refine ⟨hvisible, fun v hv => ?_⟩
    rw [shown_eq_defined_iff.mpr hvisible, hv] at h
    exact Option.some.inj h
  · rintro ⟨hvisible, hnormal⟩
    rw [shown_eq_defined_iff.mpr hvisible]
    cases hv : defined slots with
    | none => rfl
    | some v => exact congrArg some (hnormal v hv)

/-- **Layered configuration.** (1) Each leaf of the result has the value of the most specific layer that
defines it exactly if no layer above hides it and its texts are trimmed. (2) Where what the layers define
is an accepted configuration, there is a result exactly if no required leaf is hidden. (3) A layer
changes just the leaves it defines exactly if it hides none. (4) Merging is associative, (5) so the agent
and the run may be merged first. -/
theorem resolveEffectiveConfig_correct_iff (instanceLayer : Option ProjectConfigOverride)
    (project : ProjectConfig) (agent run : Option ProjectConfigOverride) :
    (∀ config,
      resolveEffectiveConfig instanceLayer project agent run = .ok config →
      ((∀ {α : Type} (leaf : Leaf α), leaf.value (projectAsOverride config) =
          defined (leaf.slots (layers instanceLayer project agent run))) ↔
        ∀ {α : Type} (leaf : Leaf α),
          ¬ Hidden (leaf.slots (layers instanceLayer project agent run)) ∧
            ∀ v, defined (leaf.slots (layers instanceLayer project agent run)) = some v →
              leaf.normal v = v)) ∧
    (HeadAccepted project.projectId project.version project.agents →
      (∀ {α : Type} (leaf : Leaf α),
        leaf.parse (defined (leaf.slots (layers instanceLayer project agent run))) ≠ none) →
      ((∃ config, resolveEffectiveConfig instanceLayer project agent run = .ok config) ↔
        ∀ {α : Type} (leaf : Leaf α), leaf.isRequired = true →
          ¬ Hidden (leaf.slots (layers instanceLayer project agent run)))) ∧
    (∀ base override, ∀ {α : Type} (leaf : Leaf α),
      leaf.value (mergeConfigOverride base (some override)) =
          defined [leaf.field override, leaf.field base] ↔
        ¬ Hidden [leaf.field override, leaf.field base]) ∧
    (∀ base override later,
      mergeConfigOverride (mergeConfigOverride base (some override)) later =
        mergeConfigOverride base (some (mergeConfigOverride override later))) ∧
    ∀ agent,
      resolveEffectiveConfig instanceLayer project (some (mergeConfigOverride agent run)) none =
        resolveEffectiveConfig instanceLayer project (some agent) run := by
  refine ⟨?_, ?_, ?_, mergeConfigOverride_assoc, ?_⟩
  · intro config h
    refine forall_congr' fun α => forall_congr' fun leaf => ?_
    rw [value_of_resolve h leaf]
    exact map_normal_eq_defined_iff leaf _
  · intro hhead hlaw
    rw [exists_resolve_iff, and_iff_right hhead]
    constructor
    · intro hshown α leaf hrequired hhidden
      refine hshown leaf ?_
      rw [hhidden.shown_eq_none, Leaf.parse, if_pos hrequired]
    · intro hvisible α leaf
      by_cases hhidden : Hidden (leaf.slots (layers instanceLayer project agent run))
      · have hoptional : leaf.isRequired = false :=
          Bool.eq_false_iff.mpr fun hrequired => hvisible leaf hrequired hhidden
        rw [hhidden.shown_eq_none, Leaf.parse, hoptional]
        exact Option.some_ne_none _
      · rw [shown_eq_defined_iff.mpr hhidden]
        exact hlaw leaf
  · intro base override α leaf
    rw [← shown_eq_defined_iff, Leaf.value, Leaf.field_merge, Option.bind_some, shown,
      ← findSome?_spread]
    generalize spread _ _ = slot
    cases slot <;> rfl
  · intro agent
    have hmerge := mergeConfigOverride_assoc
      (mergeConfigOverride (mergeConfigOverride defaultProjectConfigOverride instanceLayer)
        (some (projectAsOverride project))) agent run
    unfold resolveEffectiveConfig
    simp only [hmerge]
    rfl

/-! ### A project and its runs -/

/-- A project with a limit of 1000 tokens a run. -/
def sampleProject : ProjectConfig where
  projectId := "project-1"
  version := .finite (.ofNat 1)
  workflow :=
    { maxStepsPerRun := .finite (.ofNat 8), maxRetriesPerTask := .finite (.ofNat 3)
      approvalGateMode := .enabled, approvalRequiredActions := [.gitPush]
      approvalBulkFileThreshold := .finite (.ofNat 25) }
  tools :=
    { writeMode := .workspaceWrite, allowedWritePaths := ["src"], protectedWritePaths := [".env"]
      allowedShellCommands := ["npm test"], maxModifiedFiles := .finite (.ofNat 200) }
  budgets := { tokens := { perRun := some (some (.finite (.ofNat 1000))) }, money := {} }
  modelRoutingRef := none
  agents := none

/-- A run that defines a limit of its own. -/
def narrowRun : ProjectConfigOverride where
  budgets := some { tokens := some { perRun := some (some (.finite (.ofNat 10))) } }

/-- A run with the limit present, and undefined. -/
def undefinedRun : ProjectConfigOverride where
  budgets := some { tokens := some { perRun := some none } }

/-- The limit of the narrow run is the limit of the result. -/
theorem resolveEffectiveConfig_correct_iff_narrow :
    ∃ config, resolveEffectiveConfig none sampleProject none (some narrowRun) = .ok config ∧
      Leaf.perRun.value (projectAsOverride config) = some (.finite (.ofNat 10)) := by
  have hok : (resolveEffectiveConfig none sampleProject none (some narrowRun)).isOk = true := by
    decide +kernel
  match hresolve : resolveEffectiveConfig none sampleProject none (some narrowRun) with
  | .error e =>
    rw [hresolve] at hok
    cases hok
  | .ok config =>
    refine ⟨config, rfl, ?_⟩
    have hcorrect := resolveEffectiveConfig_correct_iff none sampleProject none (some narrowRun)
    refine ((hcorrect.1 _ hresolve).mpr ?_ .perRun).trans rfl
    intro α leaf
    refine ⟨fun hhidden => ?_, fun v hv => ?_⟩
    · cases leaf <;> exact absurd hhidden.1 (by decide)
    · cases leaf with
      | allowedWritePaths | protectedWritePaths | allowedShellCommands =>
        obtain rfl := Option.some.inj hv
        decide
      | _ => rfl

/-- **A limit that is lost**: the project's limit does not reach the result. -/
theorem perRun_lost :
    (resolveEffectiveConfig none sampleProject none (some undefinedRun)).toOption.map
        (fun config => Leaf.perRun.value (projectAsOverride config)) = some none ∧
      defined (Leaf.perRun.slots (layers none sampleProject none (some undefinedRun))) =
        some (.finite (.ofNat 1000)) := by
  decide +kernel

end Config

end AiOrchestrator
