import Mathlib.Data.Rat.Defs
import Mathlib.Algebra.Order.Field.Rat
import Mathlib.Data.Set.Operations
import Mathlib.Order.Interval.Set.Basic

/-!
# Service levels and their alerts

`packages/application/src/slo/slo-policy.ts` and `slo-alerts.ts`. An SLI snapshot is assessed against
the thresholds and the error budget of a policy; every failed criterion and every state of the budget
other than healthy becomes an alert. Percentages are rational numbers, and how the program writes
them in its evidence is left to `NumberTexts`.
-/

namespace AiOrchestrator

structure SliSnapshot where
  successRatePercent : ℚ
  timeoutRatePercent : ℚ
  cancellationRatePercent : ℚ
  p95LatencyMs : ℚ
  sampleSize : Nat

structure SloThresholds where
  minSuccessRatePercent : ℚ
  maxTimeoutRatePercent : ℚ
  maxCancellationRatePercent : ℚ
  maxP95LatencyMs : ℚ

structure ErrorBudgetPolicy where
  periodDays : ℚ
  monthlyErrorBudgetPercent : ℚ
  burnWarningThresholdPercent : ℚ

structure SloPolicy where
  id : String
  thresholds : SloThresholds
  errorBudget : ErrorBudgetPolicy

/-- `DEFAULT_AUTONOMOUS_SLO_POLICY`. -/
def defaultAutonomousSloPolicy : SloPolicy where
  id := "autonomous-default-v1"
  thresholds :=
    { minSuccessRatePercent := 99
      maxTimeoutRatePercent := 1
      maxCancellationRatePercent := 2
      maxP95LatencyMs := 120000 }
  errorBudget :=
    { periodDays := 30
      monthlyErrorBudgetPercent := 1
      burnWarningThresholdPercent := 70 }

/-- The texts of numbers: `String(value)` and `value.toFixed(2)`. -/
structure NumberTexts where
  text : ℚ → String
  toFixed : ℚ → String

/-! ### Assessments -/

inductive CriterionStatus
  | pass
  | fail
deriving DecidableEq

structure SloAssessmentCriterion where
  id : String
  status : CriterionStatus
  evidence : String

inductive SloVerdict
  | healthy
  | atRisk
deriving DecidableEq

inductive ErrorBudgetStatus
  | healthy
  | burnWarning
  | exhausted
deriving DecidableEq

structure ErrorBudgetAssessment where
  consumedPercent : ℚ
  remainingPercent : ℚ
  status : ErrorBudgetStatus

structure SloAssessment where
  policyId : String
  generatedAt : String
  verdict : SloVerdict
  criteria : List SloAssessmentCriterion
  errorBudget : ErrorBudgetAssessment

/-- The four criteria of `assessSlo`. -/
def sloCriteria (texts : NumberTexts) (snapshot : SliSnapshot) (policy : SloPolicy) :
    List SloAssessmentCriterion :=
  [{ id := "success-rate"
     status := if policy.thresholds.minSuccessRatePercent ≤ snapshot.successRatePercent then .pass
       else .fail
     evidence := "successRate=" ++ texts.toFixed snapshot.successRatePercent ++ "% threshold>=" ++
       texts.text policy.thresholds.minSuccessRatePercent ++ "%" },
   { id := "timeout-rate"
     status := if snapshot.timeoutRatePercent ≤ policy.thresholds.maxTimeoutRatePercent then .pass
       else .fail
     evidence := "timeoutRate=" ++ texts.toFixed snapshot.timeoutRatePercent ++ "% threshold<=" ++
       texts.text policy.thresholds.maxTimeoutRatePercent ++ "%" },
   { id := "cancellation-rate"
     status := if snapshot.cancellationRatePercent ≤ policy.thresholds.maxCancellationRatePercent
       then .pass else .fail
     evidence := "cancellationRate=" ++ texts.toFixed snapshot.cancellationRatePercent ++
       "% threshold<=" ++ texts.text policy.thresholds.maxCancellationRatePercent ++ "%" },
   { id := "p95-latency"
     status := if snapshot.p95LatencyMs ≤ policy.thresholds.maxP95LatencyMs then .pass else .fail
     evidence := "p95LatencyMs=" ++ texts.text snapshot.p95LatencyMs ++ " threshold<=" ++
       texts.text policy.thresholds.maxP95LatencyMs }]

/-- The share of all runs that failed. -/
def SliSnapshot.consumedPercent (snapshot : SliSnapshot) : ℚ :=
  max 0 (100 - snapshot.successRatePercent)

/-- `errorBudgetStatus`. -/
def errorBudgetStatus (errorBudget : ErrorBudgetPolicy) (consumedPercent : ℚ) :
    ErrorBudgetStatus :=
  if errorBudget.monthlyErrorBudgetPercent < consumedPercent then .exhausted
  else if errorBudget.burnWarningThresholdPercent ≤ consumedPercent then .burnWarning
  else .healthy

/-- `assessSlo`, at the time `now`. -/
def assessSlo (texts : NumberTexts) (now : String) (snapshot : SliSnapshot) (policy : SloPolicy) :
    SloAssessment :=
  let criteria := sloCriteria texts snapshot policy
  { policyId := policy.id
    generatedAt := now
    verdict := if criteria.all (·.status = .pass) then .healthy else .atRisk
    criteria := criteria
    errorBudget :=
      { consumedPercent := snapshot.consumedPercent
        remainingPercent :=
          max 0 (policy.errorBudget.monthlyErrorBudgetPercent - snapshot.consumedPercent)
        status := errorBudgetStatus policy.errorBudget snapshot.consumedPercent } }

/-! ### Alerts -/

inductive SloIncidentClass
  | successRateBreach
  | timeoutRateBreach
  | cancellationRateBreach
  | latencyBreach
  | errorBudgetBurnWarning
  | errorBudgetExhausted
deriving DecidableEq

namespace SloIncidentClass

def text : SloIncidentClass → String
  | successRateBreach => "success_rate_breach"
  | timeoutRateBreach => "timeout_rate_breach"
  | cancellationRateBreach => "cancellation_rate_breach"
  | latencyBreach => "latency_breach"
  | errorBudgetBurnWarning => "error_budget_burn_warning"
  | errorBudgetExhausted => "error_budget_exhausted"

end SloIncidentClass

inductive AlertSeverity
  | warning
  | critical
deriving DecidableEq

def AlertSeverity.text : AlertSeverity → String
  | warning => "warning"
  | critical => "critical"

def SloVerdict.text : SloVerdict → String
  | healthy => "healthy"
  | atRisk => "at_risk"

structure SloRunbookReference where
  id : SloIncidentClass
  title : String
  path : String

/-- `RUNBOOKS`. -/
def runbooks (incidentClass : SloIncidentClass) : SloRunbookReference where
  id := incidentClass
  title := match incidentClass with
    | .successRateBreach => "Success rate SLO breach response"
    | .timeoutRateBreach => "Timeout incident response"
    | .cancellationRateBreach => "Cancellation storm response"
    | .latencyBreach => "Latency degradation response"
    | .errorBudgetBurnWarning => "Error budget burn warning"
    | .errorBudgetExhausted => "Error budget exhausted incident"
  path := match incidentClass with
    | .successRateBreach => "docs/runbooks/autonomous-incidents.md#1-success-rate-breach"
    | .timeoutRateBreach => "docs/runbooks/autonomous-incidents.md#2-timeout-rate-breach"
    | .cancellationRateBreach => "docs/runbooks/autonomous-incidents.md#3-cancellation-rate-breach"
    | .latencyBreach => "docs/runbooks/autonomous-incidents.md#4-latency-breach"
    | .errorBudgetBurnWarning => "docs/runbooks/autonomous-incidents.md#5-error-budget-burn-warning"
    | .errorBudgetExhausted => "docs/runbooks/autonomous-incidents.md#6-error-budget-exhausted"

structure SloAlert where
  id : String
  incidentClass : SloIncidentClass
  severity : AlertSeverity
  summary : String
  details : String
  runbook : SloRunbookReference
  evidence : List String
  generatedAt : String
  policyId : String

structure SloAlertBatch where
  assessment : SloAssessment
  alerts : List SloAlert

/-- `mapCriterionFailureToIncident`. -/
def mapCriterionFailureToIncident (criterion : SloAssessmentCriterion) : Option SloIncidentClass :=
  if criterion.status ≠ .fail then none
  else if criterion.id = "success-rate" then some .successRateBreach
  else if criterion.id = "timeout-rate" then some .timeoutRateBreach
  else if criterion.id = "cancellation-rate" then some .cancellationRateBreach
  else if criterion.id = "p95-latency" then some .latencyBreach
  else none

def createAlert (incidentClass : SloIncidentClass) (severity : AlertSeverity)
    (assessment : SloAssessment) (evidence : List String) : SloAlert where
  id := assessment.policyId ++ ":" ++ incidentClass.text
  incidentClass := incidentClass
  severity := severity
  summary := "SLO " ++ incidentClass.text ++ " (" ++ severity.text ++ ")"
  details := "Autonomous SLO policy " ++ assessment.policyId ++ " produced " ++
    incidentClass.text ++ " in verdict " ++ assessment.verdict.text
  runbook := runbooks incidentClass
  evidence := evidence
  generatedAt := assessment.generatedAt
  policyId := assessment.policyId

/-- The evidence of an alert about the error budget. -/
def errorBudgetEvidence (texts : NumberTexts) (assessment : SloAssessment)
    (policy : Option SloPolicy) : List String :=
  ["errorBudgetConsumedPercent=" ++ texts.toFixed assessment.errorBudget.consumedPercent,
   "errorBudgetLimitPercent=" ++ texts.text
     ((policy.map fun p => p.errorBudget.monthlyErrorBudgetPercent).getD 1)]

/-- `buildSloAlertBatch`; without a policy the default one is meant. -/
def buildSloAlertBatch (texts : NumberTexts) (now : String) (snapshot : SliSnapshot)
    (policy : Option SloPolicy) : SloAlertBatch :=
  let assessment := assessSlo texts now snapshot (policy.getD defaultAutonomousSloPolicy)
  let breaches := assessment.criteria.filterMap fun criterion =>
    (mapCriterionFailureToIncident criterion).map fun incidentClass =>
      createAlert incidentClass .critical assessment [criterion.evidence]
  let burnWarning := if assessment.errorBudget.status = .burnWarning then
      [createAlert .errorBudgetBurnWarning .warning assessment
        (errorBudgetEvidence texts assessment policy)]
    else []
  let exhausted := if assessment.errorBudget.status = .exhausted then
      [createAlert .errorBudgetExhausted .critical assessment
        (errorBudgetEvidence texts assessment policy)]
    else []
  { assessment := assessment
    alerts := breaches ++ burnWarning ++ exhausted }

end AiOrchestrator
