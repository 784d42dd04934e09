import AiOrchestrator.Application.Slo
import Mathlib.Tactic.FieldSimp
import Mathlib.Tactic.Linarith
import Mathlib.Tactic.NormNum

/-!
# What the alerts of a service level say

A policy gives its warning threshold as a percentage of the error budget, and `assessSlo` compares the
consumed percentage of all runs with it. The two marks agree outside the interval between them
(`burnWarning_agrees_iff`), and an empty window is assessed like any other (`alerts_eq_nil_iff`).
`sloAlerts_iff` collects both into the exact condition under which the alerts are the promised ones; that
fewer successes never look healthier holds throughout (`errorBudgetStatus_mono`).
-/

namespace AiOrchestrator

/-! ### The state of the budget -/

/-- How far a state is from healthy. -/
def ErrorBudgetStatus.level : ErrorBudgetStatus → Nat
  | healthy => 0
  | burnWarning => 1
  | exhausted => 2

section Status

variable {errorBudget : ErrorBudgetPolicy} {consumed : ℚ}

theorem errorBudgetStatus_eq_exhausted_iff :
    errorBudgetStatus errorBudget consumed = .exhausted ↔
      errorBudget.monthlyErrorBudgetPercent < consumed := by
  unfold errorBudgetStatus
  split_ifs with hexhausted <;> simp [hexhausted]

theorem errorBudgetStatus_eq_burnWarning_iff :
    errorBudgetStatus errorBudget consumed = .burnWarning ↔
      ¬ errorBudget.monthlyErrorBudgetPercent < consumed ∧
        errorBudget.burnWarningThresholdPercent ≤ consumed := by
  unfold errorBudgetStatus
  split_ifs with hexhausted hburn
  · simp [hexhausted]
  · simp [hexhausted, hburn]
  · simp [hburn]

theorem errorBudgetStatus_eq_healthy_iff :
    errorBudgetStatus errorBudget consumed = .healthy ↔
      ¬ errorBudget.monthlyErrorBudgetPercent < consumed ∧
        consumed < errorBudget.burnWarningThresholdPercent := by
  unfold errorBudgetStatus
  split_ifs with hexhausted hburn
  · simp [hexhausted]
  · simp [hburn.not_gt]
  · simp [hexhausted, not_le.mp hburn]

/-- **A larger part of the budget** is never further from alarm. -/
theorem errorBudgetStatus_mono {more : ℚ} (h : consumed ≤ more) :
    (errorBudgetStatus errorBudget consumed).level ≤ (errorBudgetStatus errorBudget more).level := by
  unfold errorBudgetStatus
  by_cases hexhausted : errorBudget.monthlyErrorBudgetPercent < consumed
  · rw [if_pos hexhausted, if_pos (hexhausted.trans_le h)]
  · rw [if_neg hexhausted]
    by_cases hburn : errorBudget.burnWarningThresholdPercent ≤ consumed
    · rw [if_pos hburn, if_pos (hburn.trans h)]
      split_ifs <;> decide
    · rw [if_neg hburn]
      exact Nat.zero_le _

theorem SliSnapshot.consumedPercent_anti {lower higher : SliSnapshot}
    (h : lower.successRatePercent ≤ higher.successRatePercent) :
    higher.consumedPercent ≤ lower.consumedPercent :=
  max_le_max le_rfl (sub_le_sub_left h 100)

/-! ### The share of the budget -/

/-- The part of the budget that is consumed, in percent of the budget. -/
def budgetShare (errorBudget : ErrorBudgetPolicy) (consumed : ℚ) : ℚ :=
  consumed / errorBudget.monthlyErrorBudgetPercent * 100

/-- The percentage of all runs at which the warning threshold is reached. -/
def ErrorBudgetPolicy.warningMark (errorBudget : ErrorBudgetPolicy) : ℚ :=
  errorBudget.burnWarningThresholdPercent * errorBudget.monthlyErrorBudgetPercent / 100

/-- A percentage of all runs on one side of the warning threshold and of the mark that the threshold
means. -/
def MarksAgree (errorBudget : ErrorBudgetPolicy) (consumed : ℚ) : Prop :=
  consumed ∉ Set.Ico (min errorBudget.burnWarningThresholdPercent errorBudget.warningMark)
    (max errorBudget.burnWarningThresholdPercent errorBudget.warningMark)

theorem le_budgetShare_iff (hbudget : 0 < errorBudget.monthlyErrorBudgetPercent) :
    errorBudget.burnWarningThresholdPercent ≤ budgetShare errorBudget consumed ↔
      errorBudget.warningMark ≤ consumed := by
  unfold budgetShare ErrorBudgetPolicy.warningMark
  calc errorBudget.burnWarningThresholdPercent ≤
        consumed / errorBudget.monthlyErrorBudgetPercent * 100
      ↔ errorBudget.burnWarningThresholdPercent / 100 ≤
          consumed / errorBudget.monthlyErrorBudgetPercent := by
        rw [div_le_iff₀ (by norm_num)]
    _ ↔ errorBudget.burnWarningThresholdPercent / 100 * errorBudget.monthlyErrorBudgetPercent ≤
          consumed := by rw [le_div_iff₀ hbudget]
    _ ↔ errorBudget.burnWarningThresholdPercent * errorBudget.monthlyErrorBudgetPercent / 100 ≤
          consumed := by rw [div_mul_eq_mul_div]

/-- Two marks are reached together outside the interval between them. -/
theorem notMem_Ico_min_max_iff {a b x : ℚ} :
    x ∉ Set.Ico (min a b) (max a b) ↔ (a ≤ x ↔ b ≤ x) := by
  rw [Set.mem_Ico, min_le_iff, lt_max_iff]
  constructor
  · intro h
    constructor
    · intro ha
      by_contra hb
      exact h ⟨.inl ha, .inr (not_le.mp hb)⟩
    · intro hb
      by_contra ha
      exact h ⟨.inr hb, .inl (not_le.mp ha)⟩
  · rintro h ⟨ha | hb, ha' | hb'⟩
    · exact ha'.not_ge ha
    · exact hb'.not_ge (h.mp ha)
    · exact ha'.not_ge (h.mpr hb)
    · exact hb'.not_ge hb

theorem burnWarning_agrees_iff (hbudget : 0 < errorBudget.monthlyErrorBudgetPercent) :
    (errorBudgetStatus errorBudget consumed = .burnWarning ↔
      ¬ errorBudget.monthlyErrorBudgetPercent < consumed ∧
        errorBudget.burnWarningThresholdPercent ≤ budgetShare errorBudget consumed) ↔
      (consumed ≤ errorBudget.monthlyErrorBudgetPercent → MarksAgree errorBudget consumed) := by
  rw [errorBudgetStatus_eq_burnWarning_iff, le_budgetShare_iff hbudget, MarksAgree,
    notMem_Ico_min_max_iff, and_congr_right_iff, not_lt]

end Status

/-! ### The alerts of a batch -/

section Alerts

variable {texts : NumberTexts} {now : String} {snapshot : SliSnapshot} {policy : Option SloPolicy}

/-- The policy that is applied. -/
def appliedPolicy (policy : Option SloPolicy) : SloPolicy := policy.getD defaultAutonomousSloPolicy

/-- An alert of a class is raised. -/
def SloAlertBatch.Raises (batch : SloAlertBatch) (incidentClass : SloIncidentClass) : Prop :=
  ∃ alert ∈ batch.alerts, alert.incidentClass = incidentClass

/-- No failed criterion is an incident of the error budget. -/
theorem mapCriterionFailureToIncident_ne (criterion : SloAssessmentCriterion) :
    mapCriterionFailureToIncident criterion ≠ some .errorBudgetBurnWarning ∧
      mapCriterionFailureToIncident criterion ≠ some .errorBudgetExhausted := by
  unfold mapCriterionFailureToIncident
  split_ifs <;> exact ⟨nofun, nofun⟩

@[simp] theorem createAlert_incidentClass (incidentClass : SloIncidentClass)
    (severity : AlertSeverity) (assessment : SloAssessment) (evidence : List String) :
    (createAlert incidentClass severity assessment evidence).incidentClass = incidentClass := rfl

/-- **The alerts of a batch** are those of the failed criteria and at most one of the budget. -/
theorem mem_alerts_iff {alert : SloAlert} :
    alert ∈ (buildSloAlertBatch texts now snapshot policy).alerts ↔
      (∃ criterion ∈ sloCriteria texts snapshot (appliedPolicy policy),
        ∃ incidentClass, mapCriterionFailureToIncident criterion = some incidentClass ∧
          createAlert incidentClass .critical
            (assessSlo texts now snapshot (appliedPolicy policy)) [criterion.evidence] = alert) ∨
      (errorBudgetStatus (appliedPolicy policy).errorBudget snapshot.consumedPercent = .burnWarning ∧
        alert = createAlert .errorBudgetBurnWarning .warning
          (assessSlo texts now snapshot (appliedPolicy policy))
          (errorBudgetEvidence texts (assessSlo texts now snapshot (appliedPolicy policy)) policy)) ∨
      (errorBudgetStatus (appliedPolicy policy).errorBudget snapshot.consumedPercent = .exhausted ∧
        alert = createAlert .errorBudgetExhausted .critical
          (assessSlo texts now snapshot (appliedPolicy policy))
          (errorBudgetEvidence texts (assessSlo texts now snapshot (appliedPolicy policy)) policy)) := by
  unfold buildSloAlertBatch appliedPolicy
  simp only [List.mem_append, List.mem_filterMap, Option.map_eq_some_iff, List.mem_ite_nil_right,
    List.mem_singleton, or_assoc]
  rfl

theorem raises_burnWarning_iff :
    (buildSloAlertBatch texts now snapshot policy).Raises .errorBudgetBurnWarning ↔
      errorBudgetStatus (appliedPolicy policy).errorBudget snapshot.consumedPercent =
        .burnWarning := by
  constructor
  · rintro ⟨alert, halert, hclass⟩
    rcases mem_alerts_iff.mp halert with ⟨criterion, -, c, hc, rfl⟩ | ⟨h, -⟩ | ⟨-, rfl⟩
    · rw [createAlert_incidentClass] at hclass
      subst hclass
      exact absurd hc (mapCriterionFailureToIncident_ne criterion).1
    · exact h
    · cases hclass
  · intro h
    exact ⟨_, mem_alerts_iff.mpr (.inr (.inl ⟨h, rfl⟩)), rfl⟩

theorem raises_exhausted_iff :
    (buildSloAlertBatch texts now snapshot policy).Raises .errorBudgetExhausted ↔
      errorBudgetStatus (appliedPolicy policy).errorBudget snapshot.consumedPercent =
        .exhausted := by
  constructor
  · rintro ⟨alert, halert, hclass⟩
    rcases mem_alerts_iff.mp halert with ⟨criterion, -, c, hc, rfl⟩ | ⟨-, rfl⟩ | ⟨h, -⟩
    · rw [createAlert_incidentClass] at hclass
      subst hclass
      exact absurd hc (mapCriterionFailureToIncident_ne criterion).2
    · cases hclass
    · exact h
  · intro h
    exact ⟨_, mem_alerts_iff.mpr (.inr (.inr ⟨h, rfl⟩)), rfl⟩

/-- A snapshot within the thresholds of a policy. -/
structure SliSnapshot.Within (snapshot : SliSnapshot) (thresholds : SloThresholds) : Prop where
  successRate : thresholds.minSuccessRatePercent ≤ snapshot.successRatePercent
  timeoutRate : snapshot.timeoutRatePercent ≤ thresholds.maxTimeoutRatePercent
  cancellationRate : snapshot.cancellationRatePercent ≤ thresholds.maxCancellationRatePercent
  p95Latency : snapshot.p95LatencyMs ≤ thresholds.maxP95LatencyMs

/-- A criterion of an assessment is an incident where it fails. -/
theorem mapCriterionFailureToIncident_eq_none_iff {criterion : SloAssessmentCriterion}
    (hid : criterion.id = "success-rate" ∨ criterion.id = "timeout-rate" ∨
      criterion.id = "cancellation-rate" ∨ criterion.id = "p95-latency") :
    mapCriterionFailureToIncident criterion = none ↔ criterion.status = .pass := by
  unfold mapCriterionFailureToIncident
  cases hstatus : criterion.status with
  | pass => simp
  | fail => rcases hid with hid | hid | hid | hid <;> simp [hid]

/-- No criterion is an incident exactly for a snapshot within the thresholds. -/
theorem no_incident_iff (texts : NumberTexts) (snapshot : SliSnapshot) (p : SloPolicy) :
    (∀ criterion ∈ sloCriteria texts snapshot p, mapCriterionFailureToIncident criterion = none) ↔
      snapshot.Within p.thresholds := by
  have hpass : ∀ (ok : Prop) [Decidable ok],
      (if ok then CriterionStatus.pass else .fail) = .pass ↔ ok := by
    intro ok _
    split_ifs with h <;> simp [h]
  simp only [sloCriteria, List.forall_mem_cons, mapCriterionFailureToIncident_eq_none_iff,
    String.reduceEq, or_true, or_false, hpass]
  constructor
  · rintro ⟨hsuccess, htimeout, hcancellation, hlatency, -⟩
    exact ⟨hsuccess, htimeout, hcancellation, hlatency⟩
  · rintro ⟨hsuccess, htimeout, hcancellation, hlatency⟩
    exact ⟨hsuccess, htimeout, hcancellation, hlatency, fun _ h => absurd h List.not_mem_nil⟩

/-- **Silence**: no alert is raised exactly within the thresholds and with a healthy budget. -/
theorem alerts_eq_nil_iff :
    (buildSloAlertBatch texts now snapshot policy).alerts = [] ↔
      snapshot.Within (appliedPolicy policy).thresholds ∧
        errorBudgetStatus (appliedPolicy policy).errorBudget snapshot.consumedPercent =
          .healthy := by
  rw [List.eq_nil_iff_forall_not_mem, ← no_incident_iff texts]
  constructor
  · intro h
    constructor
    · intro criterion hcriterion
      cases hclass : mapCriterionFailureToIncident criterion with
      | none => rfl
      | some c => exact absurd (mem_alerts_iff.mpr (.inl ⟨criterion, hcriterion, c, hclass, rfl⟩)) (h _)
    · cases hstatus : errorBudgetStatus (appliedPolicy policy).errorBudget snapshot.consumedPercent with
      | healthy => rfl
      | burnWarning => exact absurd (mem_alerts_iff.mpr (.inr (.inl ⟨hstatus, rfl⟩))) (h _)
      | exhausted => exact absurd (mem_alerts_iff.mpr (.inr (.inr ⟨hstatus, rfl⟩))) (h _)
  · rintro ⟨hnone, hhealthy⟩ alert halert
    rcases mem_alerts_iff.mp halert with ⟨criterion, hcriterion, c, hc, -⟩ | ⟨h, -⟩ | ⟨h, -⟩
    · rw [hnone criterion hcriterion] at hc
      cases hc
    · rw [hhealthy] at h
      cases h
    · rw [hhealthy] at h
      cases h

/-! ### The promise -/

/-- **What the alerts promise** for a snapshot: with samples the assessment and the batch name the state
of the budget, which fewer successes never bring closer to healthy, and without samples they are
silent. -/
structure AlertsAsPromised (texts : NumberTexts) (now : String) (policy : Option SloPolicy)
    (snapshot : SliSnapshot) : Prop where
  exhausted : 0 < snapshot.sampleSize →
    ((assessSlo texts now snapshot (appliedPolicy policy)).errorBudget.status = .exhausted ↔
      (appliedPolicy policy).errorBudget.monthlyErrorBudgetPercent < snapshot.consumedPercent) ∧
    ((buildSloAlertBatch texts now snapshot policy).Raises .errorBudgetExhausted ↔
      (appliedPolicy policy).errorBudget.monthlyErrorBudgetPercent < snapshot.consumedPercent)
  burnWarning : 0 < snapshot.sampleSize →
    ((assessSlo texts now snapshot (appliedPolicy policy)).errorBudget.status = .burnWarning ↔
      ¬ (appliedPolicy policy).errorBudget.monthlyErrorBudgetPercent < snapshot.consumedPercent ∧
        (appliedPolicy policy).errorBudget.burnWarningThresholdPercent ≤
          budgetShare (appliedPolicy policy).errorBudget snapshot.consumedPercent) ∧
    ((buildSloAlertBatch texts now snapshot policy).Raises .errorBudgetBurnWarning ↔
      ¬ (appliedPolicy policy).errorBudget.monthlyErrorBudgetPercent < snapshot.consumedPercent ∧
        (appliedPolicy policy).errorBudget.burnWarningThresholdPercent ≤
          budgetShare (appliedPolicy policy).errorBudget snapshot.consumedPercent)
  monotone : ∀ lower : SliSnapshot, lower.successRatePercent ≤ snapshot.successRatePercent →
    (assessSlo texts now snapshot (appliedPolicy policy)).errorBudget.status.level ≤
      (assessSlo texts now lower (appliedPolicy policy)).errorBudget.status.level
  silent : snapshot.sampleSize = 0 → (buildSloAlertBatch texts now snapshot policy).alerts = []

/-- Where the alerts are right: with samples the consumed percentage lies above the budget or not
between the two readings of the warning threshold; without samples it lies within the budget and below
the threshold, and the snapshot within the thresholds. -/
def UnitsAgree (policy : SloPolicy) (snapshot : SliSnapshot) : Prop :=
  (0 < snapshot.sampleSize →
    snapshot.consumedPercent ≤ policy.errorBudget.monthlyErrorBudgetPercent →
      MarksAgree policy.errorBudget snapshot.consumedPercent) ∧
  (snapshot.sampleSize = 0 → snapshot.Within policy.thresholds ∧
    snapshot.consumedPercent ≤ policy.errorBudget.monthlyErrorBudgetPercent ∧
    snapshot.consumedPercent < policy.errorBudget.burnWarningThresholdPercent)

/-- **Alerts of a service level**: for a policy with an error budget they are the promised ones just
where the two units agree. -/
theorem sloAlerts_iff (texts : NumberTexts) (now : String) (policy : Option SloPolicy)
    (snapshot : SliSnapshot)
    (hbudget : 0 < (appliedPolicy policy).errorBudget.monthlyErrorBudgetPercent) :
    AlertsAsPromised texts now policy snapshot ↔ UnitsAgree (appliedPolicy policy) snapshot := by
  constructor
  · intro h
    refine ⟨fun hsamples => ?_, fun hempty => ?_⟩
    · exact (burnWarning_agrees_iff hbudget).mp (h.burnWarning hsamples).1
    · obtain ⟨hwithin, hhealthy⟩ := alerts_eq_nil_iff.mp (h.silent hempty)
      obtain ⟨hbudget', hthreshold⟩ := errorBudgetStatus_eq_healthy_iff.mp hhealthy
      exact ⟨hwithin, not_lt.mp hbudget', hthreshold⟩
  · rintro ⟨hmarks, hquiet⟩
    refine ⟨fun _ => ?_, fun hsamples => ?_, fun lower hlower => ?_, fun hempty => ?_⟩
    · rw [raises_exhausted_iff]
      exact ⟨errorBudgetStatus_eq_exhausted_iff, errorBudgetStatus_eq_exhausted_iff⟩
    · rw [raises_burnWarning_iff]
      have hburn := (burnWarning_agrees_iff hbudget).mpr (hmarks hsamples)
      exact ⟨hburn, hburn⟩
    · exact errorBudgetStatus_mono (SliSnapshot.consumedPercent_anti hlower)
    · obtain ⟨hwithin, hconsumed, hthreshold⟩ := hquiet hempty
      exact alerts_eq_nil_iff.mpr ⟨hwithin,
        errorBudgetStatus_eq_healthy_iff.mpr ⟨not_lt.mpr hconsumed, hthreshold⟩⟩

/-- The texts of no number, for examples. -/
def noTexts : NumberTexts where
  text _ := ""
  toFixed _ := ""

/-- A policy that warns when forty per cent of a budget of one half are consumed. -/
def lenientPolicy : SloPolicy :=
  { defaultAutonomousSloPolicy with errorBudget := ⟨30, 50, 40⟩ }

/-- One run in twenty fails: the default budget is exhausted, and an alert is raised that says so.
Nine in twenty fail: a budget of one half burns, in either unit, and a warning says so. -/
theorem sloAlerts_iff_default :
    (AlertsAsPromised noTexts "" none ⟨95, 0, 0, 500, 100⟩ ∧
      (buildSloAlertBatch noTexts "" ⟨95, 0, 0, 500, 100⟩ none).Raises .errorBudgetExhausted) ∧
    AlertsAsPromised noTexts "" (some lenientPolicy) ⟨55, 0, 0, 500, 100⟩ ∧
      (buildSloAlertBatch noTexts "" ⟨55, 0, 0, 500, 100⟩ (some lenientPolicy)).Raises
        .errorBudgetBurnWarning := by
  have hexhausted : AlertsAsPromised noTexts "" none ⟨95, 0, 0, 500, 100⟩ := by
    refine (sloAlerts_iff noTexts "" none ⟨95, 0, 0, 500, 100⟩ (by decide +kernel)).mpr
      ⟨fun _ hconsumed => ?_, nofun⟩
    exact absurd hconsumed (by decide +kernel)
  have hburns : AlertsAsPromised noTexts "" (some lenientPolicy) ⟨55, 0, 0, 500, 100⟩ := by
    refine (sloAlerts_iff noTexts "" (some lenientPolicy) ⟨55, 0, 0, 500, 100⟩
      (by decide +kernel)).mpr ⟨fun _ _ => ?_, nofun⟩
    -- forty-five per cent lie behind both marks, forty and twenty
    rw [MarksAgree, notMem_Ico_min_max_iff]
    exact iff_of_true (by decide +kernel) (by decide +kernel)
  refine ⟨⟨hexhausted, (hexhausted.exhausted (by decide)).2.mpr (by decide +kernel)⟩,
    hburns, (hburns.burnWarning (by decide)).2.mpr (by decide +kernel)⟩

/-- Eight tenths of the default budget are consumed and no warning is given; a window without runs is
reported as an exhausted budget. -/
theorem defaultPolicy_alerts :
    ¬ AlertsAsPromised noTexts "" none ⟨992 / 10, 0, 0, 500, 1000⟩ ∧
      ¬ AlertsAsPromised noTexts "" none ⟨0, 0, 0, 0, 0⟩ := by
  constructor
  · intro h
    have hstatus := (h.burnWarning (by decide)).1.mpr (by decide +kernel)
    revert hstatus
    decide +kernel
  · intro h
    have halerts := h.silent rfl
    revert halerts
    exact nofun

end Alerts

end AiOrchestrator
