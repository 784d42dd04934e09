import AiOrchestrator.Application.Rollout
import Mathlib.Data.List.Pairwise

/-!
# Which rule decides a rollout

A sort by specificity puts the rule that decides before every other match (`selectedRule_spec`), and with
one rule per scope there is no other of its rank unless the rank is the last, which a rule for a project of
any tenant shares with the global rule. Away from that (`SharedRank`) the deciding rule does not depend on
the order of the rules; its percentage enables more keys the larger it is. `gradualRollout` states both.
-/

namespace AiOrchestrator

/-! ### Buckets -/

theorem toInt32_bounds (value : Int) : -2 ^ 31 ≤ toInt32 value ∧ toInt32 value < 2 ^ 31 := by
  have hle := Int.le_bmod (x := value) (m := 2 ^ 32) (by decide)
  have hlt := Int.bmod_lt (x := value) (m := 2 ^ 32) (by decide)
  unfold toInt32
  omega

/-- The hash is a signed 32-bit number after every code unit. -/
theorem stableHash_bounds (key : String) :
    -2 ^ 31 ≤ stableHash key ∧ stableHash key < 2 ^ 31 := by
  have hfold : ∀ (codes : List Nat) (hash : Int), -2 ^ 31 ≤ hash ∧ hash < 2 ^ 31 →
      -2 ^ 31 ≤ codes.foldl hashStep hash ∧ codes.foldl hashStep hash < 2 ^ 31 := by
    intro codes
    induction codes with
    | nil => exact fun _ h => h
    | cons code codes ih => exact fun hash _ => ih _ (toInt32_bounds _)
  exact hfold _ 0 (by decide)

theorem stableBucket_le (key : String) : stableBucket key ≤ 99 := by
  unfold stableBucket
  rw [Int.natAbs_tmod]
  exact Nat.le_of_lt_succ (Nat.mod_lt _ (by decide))

/-! ### Rules that match -/

namespace GradualRolloutRule

variable {rule other : GradualRolloutRule} {request : GradualRolloutRequest}

/-- A rule of the tier of a request whose scope it lies in. -/
def Applies (rule : GradualRolloutRule) (request : GradualRolloutRequest) : Prop :=
  rule.riskTier = request.riskTier ∧ rule.matchesScope request = true

instance : Decidable (rule.Applies request) := inferInstanceAs (Decidable (_ ∧ _))

/-- How much of the tenant and the project of a request a rule names. -/
def scopeSize (rule : GradualRolloutRule) : Nat :=
  (named rule.tenantId).toList.length + (named rule.projectId).toList.length

/-- Two rules for one risk tier, tenant and project. -/
def SameScope (left right : GradualRolloutRule) : Prop :=
  left.riskTier = right.riskTier ∧ named left.tenantId = named right.tenantId ∧
    named left.projectId = named right.projectId

instance : Decidable (rule.SameScope other) := inferInstanceAs (Decidable (_ ∧ _ ∧ _))

theorem SameScope.symm (h : SameScope rule other) : SameScope other rule :=
  ⟨h.1.symm, h.2.1.symm, h.2.2.symm⟩

theorem eq_some_of_named {id : Option String} {value : String} (h : named id = some value) :
    id = some value := (Option.filter_eq_some_iff.mp h).1

/-- A matching rule names nothing else than the tenant and the project of the request. -/
theorem Applies.named_eq (h : rule.Applies request) :
    (named rule.tenantId = none ∨ named rule.tenantId = some request.tenantId) ∧
      (named rule.projectId = none ∨ named rule.projectId = some request.projectId) := by
  obtain ⟨-, hscope⟩ := h
  unfold matchesScope at hscope
  split_ifs at hscope with htenant hproject
  constructor
  · cases hnamed : named rule.tenantId with
    | none => exact .inl rfl
    | some tenant =>
      refine .inr ?_
      by_contra hne
      refine htenant ⟨by rw [hnamed]; rfl, ?_⟩
      rw [eq_some_of_named hnamed]
      exact hne
  · cases hnamed : named rule.projectId with
    | none => exact .inl rfl
    | some project =>
      refine .inr ?_
      by_contra hne
      refine hproject ⟨by rw [hnamed]; rfl, ?_⟩
      rw [eq_some_of_named hnamed]
      exact hne

end GradualRolloutRule

open GradualRolloutRule

variable {request : GradualRolloutRequest} {rules : List GradualRolloutRule}

/-- At most one rule for every risk tier, tenant and project. -/
def OneRulePerScope (rules : List GradualRolloutRule) : Prop :=
  rules.Pairwise fun left right => ¬ left.SameScope right

instance : Decidable (OneRulePerScope rules) :=
  inferInstanceAs (Decidable (List.Pairwise _ _))

instance : Std.Symm fun left right : GradualRolloutRule => ¬ left.SameScope right where
  symm _ _ hnot hscope := hnot hscope.symm

theorem OneRulePerScope.eq (h : OneRulePerScope rules) {left right : GradualRolloutRule}
    (hleft : left ∈ rules) (hright : right ∈ rules) (hscope : left.SameScope right) :
    left = right := by
  by_contra hne
  exact h.forall hleft hright hne hscope

/-- **The deciding rule** matches and is at least as specific as every other match. -/
theorem selectedRule_spec {rule : GradualRolloutRule} (h : selectedRule request rules = some rule) :
    rule ∈ rules ∧ rule.Applies request ∧
      ∀ other ∈ rules, other.Applies request → other.specificity ≤ rule.specificity := by
  obtain ⟨hmem, hmatch, hfirst⟩ := Sorting.find?_insertionSort_eq_some h
  rw [List.mem_filter, decide_eq_true_eq] at hmem
  refine ⟨hmem.1, ⟨hmem.2, hmatch⟩, fun other hother happlies => ?_⟩
  exact hfirst other (List.mem_filter.mpr ⟨hother, decide_eq_true happlies.1⟩) happlies.2

theorem selectedRule_eq_none_iff :
    selectedRule request rules = none ↔ ∀ rule ∈ rules, ¬ rule.Applies request := by
  rw [selectedRule, List.find?_eq_none]
  constructor
  · rintro h rule hrule ⟨htier, hscope⟩
    refine h rule ?_ hscope
    exact (List.mem_insertionSort _).mpr (List.mem_filter.mpr ⟨hrule, decide_eq_true htier⟩)
  · intro h rule hrule hscope
    obtain ⟨hmem, htier⟩ := List.mem_filter.mp ((List.mem_insertionSort _).mp hrule)
    exact h rule hmem ⟨of_decide_eq_true htier, hscope⟩

/-- A rule for the project of a request in any tenant and a global rule match, and no rule for its tenant:
both matches are of the last rank. -/
def SharedRank (request : GradualRolloutRequest) (rules : List GradualRolloutRule) : Prop :=
  (∀ rule ∈ rules, rule.Applies request → named rule.tenantId = none) ∧
    (∃ rule ∈ rules, rule.Applies request ∧ named rule.projectId ≠ none) ∧
      ∃ rule ∈ rules, rule.Applies request ∧ named rule.projectId = none

instance : Decidable (SharedRank request rules) := inferInstanceAs (Decidable (_ ∧ _ ∧ _))

/-- The request's tenant and project named, each where the rank of the rule says so. -/
theorem GradualRolloutRule.Applies.named_of_specificity {rule : GradualRolloutRule}
    (h : rule.Applies request) :
    (rule.specificity = 3 ∧ named rule.tenantId = some request.tenantId ∧
        named rule.projectId = some request.projectId ∧ rule.scopeSize = 2) ∨
      (rule.specificity = 2 ∧ named rule.tenantId = some request.tenantId ∧
        named rule.projectId = none ∧ rule.scopeSize = 1) ∨
      (rule.specificity = 1 ∧ named rule.tenantId = none ∧
        named rule.projectId = some request.projectId ∧ rule.scopeSize = 1) ∨
      (rule.specificity = 1 ∧ named rule.tenantId = none ∧ named rule.projectId = none ∧
        rule.scopeSize = 0) := by
  unfold specificity scopeSize
  obtain ⟨htenant | htenant, hproject | hproject⟩ := h.named_eq <;> simp [htenant, hproject]

/-- Of the last rank there is no second match, unless the rank is shared. -/
theorem eq_of_not_sharedRank (hunique : OneRulePerScope rules) (hshared : ¬ SharedRank request rules)
    {rule other : GradualRolloutRule} (hrule : rule ∈ rules) (happlies : rule.Applies request)
    (hfirst : ∀ r ∈ rules, r.Applies request → r.specificity ≤ rule.specificity)
    (hother : other ∈ rules) (happlies' : other.Applies request)
    (hrank : other.specificity = rule.specificity) : other = rule := by
  have hscope : named other.tenantId = named rule.tenantId →
      named other.projectId = named rule.projectId → other = rule := fun htenant hproject =>
    hunique.eq hother hrule ⟨happlies'.1.trans happlies.1.symm, htenant, hproject⟩
  have hlast : rule.specificity = 1 → ∀ r ∈ rules, r.Applies request → named r.tenantId = none := by
    intro hone r hr happliesr
    have hle := hfirst r hr happliesr
    rcases happliesr.named_of_specificity with h | h | h | h
    · omega
    · omega
    · exact h.2.1
    · exact h.2.1
  rcases happlies.named_of_specificity with ⟨hr, ht, hp, -⟩ | ⟨hr, ht, hp, -⟩ | ⟨hr, ht, hp, -⟩ |
    ⟨hr, ht, hp, -⟩
  all_goals
    rcases happlies'.named_of_specificity with ⟨hr', ht', hp', -⟩ | ⟨hr', ht', hp', -⟩ |
      ⟨hr', ht', hp', -⟩ | ⟨hr', ht', hp', -⟩
  all_goals first | omega | exact hscope (ht'.trans ht.symm) (hp'.trans hp.symm) | skip
  · refine absurd ⟨hlast hr, ⟨rule, hrule, happlies, ?_⟩, other, hother, happlies', hp'⟩ hshared
    rw [hp]
    exact nofun
  · refine absurd ⟨hlast hr, ⟨other, hother, happlies', ?_⟩, rule, hrule, happlies, hp⟩ hshared
    rw [hp']
    exact nofun

/-- The deciding rule names as much of the request as any match, unless the rank is shared. -/
theorem scopeSize_le_of_not_sharedRank (hshared : ¬ SharedRank request rules)
    {rule other : GradualRolloutRule} (hrule : rule ∈ rules) (happlies : rule.Applies request)
    (hfirst : ∀ r ∈ rules, r.Applies request → r.specificity ≤ rule.specificity)
    (hother : other ∈ rules) (happlies' : other.Applies request) :
    other.scopeSize ≤ rule.scopeSize := by
  have hle := hfirst other hother happlies'
  rcases happlies.named_of_specificity with h | h | h | ⟨hr, ht, hp, hs⟩
  · rcases happlies'.named_of_specificity with h' | h' | h' | h' <;> omega
  · rcases happlies'.named_of_specificity with h' | h' | h' | h' <;> omega
  · rcases happlies'.named_of_specificity with h' | h' | h' | h' <;> omega
  · rcases happlies'.named_of_specificity with h' | h' | ⟨-, -, hp', -⟩ | h'
    · omega
    · omega
    · refine absurd ⟨fun r hr' happliesr => ?_, ⟨other, hother, happlies', ?_⟩,
        rule, hrule, happlies, hp⟩ hshared
      · have hler := hfirst r hr' happliesr
        rcases happliesr.named_of_specificity with h | h | h | h
        · omega
        · omega
        · exact h.2.1
        · exact h.2.1
      · rw [hp']
        exact nofun
    · omega

/-- **Order independence**: the same rule decides whatever the order of the rules. -/
theorem selectedRule_perm {rules' : List GradualRolloutRule} (hunique : OneRulePerScope rules)
    (hshared : ¬ SharedRank request rules) (hperm : rules'.Perm rules) :
    selectedRule request rules' = selectedRule request rules := by
  cases hselected : selectedRule request rules with
  | none =>
    rw [selectedRule_eq_none_iff] at hselected ⊢
    exact fun rule hrule => hselected rule (hperm.mem_iff.mp hrule)
  | some rule =>
    obtain ⟨hrule, happlies, hfirst⟩ := selectedRule_spec hselected
    cases hselected' : selectedRule request rules' with
    | none =>
      rw [selectedRule_eq_none_iff] at hselected'
      exact absurd happlies (hselected' rule (hperm.mem_iff.mpr hrule))
    | some other =>
      obtain ⟨hother, happlies', hfirst'⟩ := selectedRule_spec hselected'
      have hother := hperm.mem_iff.mp hother
      have hrank : other.specificity = rule.specificity :=
        le_antisymm (hfirst other hother happlies')
          (hfirst' rule (hperm.mem_iff.mpr hrule) happlies)
      rw [eq_of_not_sharedRank hunique hshared hrule happlies hfirst hother happlies' hrank]

/-! ### Percentages -/

/-- The rules with another percentage for one of them. -/
def withPercent (rule : GradualRolloutRule) (percent : ℚ) (rules : List GradualRolloutRule) :
    List GradualRolloutRule :=
  rules.map fun r => if r = rule then { r with rolloutPercent := percent } else r

/-- A key is enabled when the percentage of a rule is another one. -/
def EnabledAt (request : GradualRolloutRequest) (rules : List GradualRolloutRule)
    (rule : GradualRolloutRule) (percent : ℚ) (key : String) : Prop :=
  (evaluateGradualRolloutPolicy { request with rolloutKey := key }
    ⟨withPercent rule percent rules⟩).status = .enabled

instance {rule : GradualRolloutRule} {percent : ℚ} {key : String} :
    Decidable (EnabledAt request rules rule percent key) := inferInstanceAs (Decidable (_ = _))

/-- The percentage of a rule has no part in the choice of the rule. -/
theorem selectedRule_withPercent {rule : GradualRolloutRule} {percent : ℚ} (key : String)
    (h : selectedRule request rules = some rule) :
    selectedRule { request with rolloutKey := key } (withPercent rule percent rules) =
      some { rule with rolloutPercent := percent } := by
  let change (r : GradualRolloutRule) : GradualRolloutRule :=
    if r = rule then { r with rolloutPercent := percent } else r
  have hfield : ∀ {α : Type} (f : GradualRolloutRule → α)
      (_ : ∀ r, f { r with rolloutPercent := percent } = f r) (r), f (change r) = f r := by
    intro α f hf r
    show f (if r = rule then _ else r) = f r
    split_ifs with heq
    · exact hf r
    · rfl
  have htier := hfield (·.riskTier) (fun _ => rfl)
  have hrank := hfield (·.specificity) (fun _ => rfl)
  have hscope := hfield (·.matchesScope request) (fun _ => rfl)
  have hfilter : (rules.map change).filter (·.riskTier = request.riskTier) =
      (rules.filter (·.riskTier = request.riskTier)).map change := by
    rw [List.filter_map]
    congr 2
    funext r
    simp only [Function.comp_apply, htier]
  show (((rules.map change).filter (·.riskTier = request.riskTier)).insertionSort
    MoreSpecificFirst).find? (·.matchesScope request) = _
  rw [hfilter, ← List.map_insertionSort MoreSpecificFirst MoreSpecificFirst change _
    (fun a _ b _ => by unfold MoreSpecificFirst; rw [hrank, hrank]), List.find?_map]
  have hcomp : (fun r => r.matchesScope request) ∘ change = (·.matchesScope request) := funext hscope
  rw [hcomp]
  show (selectedRule request rules).map change = _
  rw [h]
  exact congrArg some (if_pos rfl)

theorem enabledAt_iff {rule : GradualRolloutRule} {percent : ℚ} {key : String}
    (h : selectedRule request rules = some rule) :
    EnabledAt request rules rule percent key ↔
      { request with rolloutKey := key }.Valid ∧ rule.enabled = true ∧
        (stableBucket key : ℚ) < percent := by
  unfold EnabledAt evaluateGradualRolloutPolicy
  rw [selectedRule_withPercent key h]
  by_cases hvalid : { request with rolloutKey := key }.Valid
  · rw [if_neg (not_not.mpr hvalid)]
    cases rule.enabled <;> simp [hvalid]
  · simp [hvalid]

/-! ### The promise -/

/-- **Gradual rollout.** Buckets lie below a hundred. With at most one rule per scope the deciding rule of a
request is, whatever the order of the rules, the match that names the most of the request, unless the
rule of a project in any tenant shares the last rank with the global one. More of its keys are enabled
at a higher percentage, none at 0, and if the rule is switched on all keys of a complete request at
100. -/
theorem gradualRollout (request : GradualRolloutRequest) (rules : List GradualRolloutRule)
    (hunique : OneRulePerScope rules) :
    (∀ key, (-2 ^ 31 ≤ stableHash key ∧ stableHash key < 2 ^ 31) ∧ stableBucket key ≤ 99) ∧
    (¬ SharedRank request rules →
      (∀ rules', rules'.Perm rules → selectedRule request rules' = selectedRule request rules) ∧
      ∀ rule, selectedRule request rules = some rule → ∀ other ∈ rules, other.Applies request →
        other.scopeSize ≤ rule.scopeSize) ∧
    (selectedRule request rules = none ↔ ∀ rule ∈ rules, ¬ rule.Applies request) ∧
    ∀ rule, selectedRule request rules = some rule →
      (rule ∈ rules ∧ rule.Applies request) ∧
      (request.Valid → (evaluateGradualRolloutPolicy request ⟨rules⟩).evidence.selectedRuleId =
        some rule.ruleId) ∧
      (∀ key p q, p ≤ q → EnabledAt request rules rule p key → EnabledAt request rules rule q key) ∧
      (∀ key, ¬ EnabledAt request rules rule 0 key) ∧
      ∀ key, rule.enabled = true → { request with rolloutKey := key }.Valid →
        EnabledAt request rules rule 100 key := by
  refine ⟨fun key => ⟨stableHash_bounds key, stableBucket_le key⟩, fun hshared => ⟨?_, ?_⟩,
    selectedRule_eq_none_iff, fun rule hselected => ?_⟩
  · exact fun rules' hperm => selectedRule_perm hunique hshared hperm
  · intro rule hselected other hother happlies'
    obtain ⟨hrule, happlies, hfirst⟩ := selectedRule_spec hselected
    exact scopeSize_le_of_not_sharedRank hshared hrule happlies hfirst hother happlies'
  · obtain ⟨hrule, happlies, -⟩ := selectedRule_spec hselected
    refine ⟨⟨hrule, happlies⟩, fun hvalid => ?_, fun key p q hle h => ?_, fun key h => ?_,
      fun key henabled hvalid => ?_⟩
    · unfold evaluateGradualRolloutPolicy
      rw [if_neg (not_not.mpr hvalid), hselected]
      cases henabled : rule.enabled <;> simp [henabled]
    · rw [enabledAt_iff hselected] at h ⊢
      exact ⟨h.1, h.2.1, h.2.2.trans_le hle⟩
    · rw [enabledAt_iff hselected] at h
      exact absurd h.2.2 (not_lt.mpr (Nat.cast_nonneg _))
    · rw [enabledAt_iff hselected]
      refine ⟨hvalid, henabled, ?_⟩
      have hle : stableBucket key ≤ 99 := stableBucket_le key
      exact_mod_cast Nat.lt_succ_of_le hle

/-- A rule that is fully rolled out. -/
def sampleRule (enabled : Bool) (projectId : Option String)
    (tenantId : Option String := none) : GradualRolloutRule where
  ruleId := "rule"
  enabled := enabled
  rolloutPercent := 100
  riskTier := .low
  tenantId := tenantId
  projectId := projectId
  createdAt := "2026-05-05T00:00:00.000Z"

def sampleRequest : GradualRolloutRequest := ⟨"tenant-a", "proj-a", .low, "run-123"⟩

/-- The rule for a project of a tenant, for a quarter of its keys. -/
def projectRule : GradualRolloutRule :=
  { sampleRule true (some "proj-a") (some "tenant-a") with
    ruleId := "project-rule", rolloutPercent := 25 }

/-- The rule for its tenant, which is switched off. -/
def tenantRule : GradualRolloutRule :=
  { sampleRule false none (some "tenant-a") with ruleId := "tenant-rule" }

/-- The rules of a store, the least specific one first. -/
def scopedRules : List GradualRolloutRule := [sampleRule true none, tenantRule, projectRule]

/-- In whatever order the store lists its three rules, the one for the project decides requests of
the project, the one for the tenant those of its other projects, and the global one those of other
tenants; more keys of the project are enabled at 100 than at its 25, and none at 0. -/
theorem gradualRollout_scoped :
    (∀ rules, rules.Perm scopedRules →
      selectedRule sampleRequest rules = some projectRule ∧
      selectedRule { sampleRequest with projectId := "proj-b" } rules = some tenantRule ∧
      selectedRule { sampleRequest with tenantId := "tenant-b" } rules =
        some (sampleRule true none)) ∧
    (∀ other ∈ scopedRules, other.Applies sampleRequest →
      other.scopeSize ≤ projectRule.scopeSize) ∧
    ¬ EnabledAt sampleRequest scopedRules projectRule 25 "run-123" ∧
    EnabledAt sampleRequest scopedRules projectRule 100 "run-123" ∧
    ¬ EnabledAt sampleRequest scopedRules projectRule 0 "run-123" := by
  have hunique : OneRulePerScope scopedRules := by decide +kernel
  have hproject := gradualRollout sampleRequest scopedRules hunique
  have htenant := gradualRollout { sampleRequest with projectId := "proj-b" } scopedRules hunique
  have hglobal := gradualRollout { sampleRequest with tenantId := "tenant-b" } scopedRules hunique
  have hselected : selectedRule sampleRequest scopedRules = some projectRule := by decide +kernel
  obtain ⟨horder, hscope⟩ := hproject.2.1 (by decide +kernel)
  obtain ⟨-, -, -, hnone, hall⟩ := hproject.2.2.2 projectRule hselected
  refine ⟨fun rules hperm => ⟨?_, ?_, ?_⟩, hscope projectRule hselected, by decide +kernel,
    hall "run-123" rfl (by decide), hnone "run-123"⟩
  · rw [horder rules hperm]
    exact hselected
  · rw [(htenant.2.1 (by decide +kernel)).1 rules hperm]
    decide +kernel
  · rw [(hglobal.2.1 (by decide +kernel)).1 rules hperm]
    decide +kernel

/-- **Neither the switch of a rule nor the order of the rules** is without effect: a rule that is switched
off enables no key at 100, a request without a key is refused at 100, and of a global rule and one for
the project the first one decides. -/
theorem rollout_exceptions :
    ¬ EnabledAt sampleRequest [sampleRule false none] (sampleRule false none) 100 "run-123" ∧
    ¬ EnabledAt sampleRequest [sampleRule true none] (sampleRule true none) 100 "" ∧
    selectedRule sampleRequest [sampleRule true none, sampleRule true (some "proj-a")] =
      some (sampleRule true none) ∧
    selectedRule sampleRequest [sampleRule true (some "proj-a"), sampleRule true none] =
      some (sampleRule true (some "proj-a")) := by
  refine ⟨?_, ?_, ?_, ?_⟩ <;> decide +kernel

end AiOrchestrator
