import AiOrchestrator.Lib.PropertyNames
import AiOrchestrator.Lib.Sorting
import Mathlib.Algebra.Order.Field.Rat

/-!
# Gradual rollout

`packages/application/src/rollout/gradual-rollout-policy.ts` over the rules of
`packages/state/src/rollout/rollout-config.store.ts`. The rules of a risk tier are sorted by how
specific they are and the first one that matches decides; it enables the keys whose bucket lies below its
percentage.
-/

namespace AiOrchestrator

inductive RolloutRiskTier
  | low
  | medium
  | high
deriving DecidableEq

structure GradualRolloutRule where
  ruleId : String
  enabled : Bool
  rolloutPercent : ℚ
  riskTier : RolloutRiskTier
  tenantId : Option String
  projectId : Option String
  createdAt : String
deriving DecidableEq

structure RolloutConfigStore where
  listRules : List GradualRolloutRule

structure GradualRolloutRequest where
  tenantId : String
  projectId : String
  riskTier : RolloutRiskTier
  rolloutKey : String

inductive RolloutStatus
  | enabled
  | disabled
deriving DecidableEq

inductive RolloutReasonCode
  | rolloutMatch
  | rolloutNotConfigured
  | rolloutDisabled
  | rolloutInputInvalid
deriving DecidableEq

inductive RolloutScope
  | global
  | tenant
  | tenantProject
deriving DecidableEq

structure GradualRolloutEvidence where
  selectedRuleId : Option String := none
  selectedScope : Option RolloutScope := none
  rolloutPercent : Option ℚ := none
  bucket : Option Nat := none
deriving DecidableEq

structure GradualRolloutDecision where
  status : RolloutStatus
  reasonCode : RolloutReasonCode
  evidence : GradualRolloutEvidence
deriving DecidableEq

/-! ### Buckets -/

/-- `value | 0`: the signed 32-bit integer with the last 32 bits of a number. -/
def toInt32 (value : Int) : Int := value.bmod (2 ^ 32)

/-- One turn of the loop of `stableBucket`: `((hash << 5) - hash) + code`, cut to 32 bits. -/
def hashStep (hash : Int) (code : Nat) : Int := toInt32 (toInt32 (hash * 2 ^ 5) - hash + code)

/-- The hash of a key after its last code unit. -/
def stableHash (key : String) : Int := (Text.codeUnits key).foldl hashStep 0

/-- `stableBucket`: `Math.abs(hash % 100)`, with the remainder that has the sign of the hash. -/
def stableBucket (key : String) : Nat := ((stableHash key).tmod 100).natAbs

/-! ### Rules -/

/-- What an optional identifier names: an empty text is as falsy as a missing one. -/
def named (id : Option String) : Option String := id.filter (· ≠ "")

namespace GradualRolloutRule

/-- `specificity`. -/
def specificity (rule : GradualRolloutRule) : Nat :=
  if (named rule.tenantId).isSome ∧ (named rule.projectId).isSome then 3
  else if (named rule.tenantId).isSome then 2
  else 1

/-- `resolveScope`. -/
def resolveScope (rule : GradualRolloutRule) : RolloutScope :=
  if (named rule.tenantId).isSome ∧ (named rule.projectId).isSome then .tenantProject
  else if (named rule.tenantId).isSome then .tenant
  else .global

/-- `matchesScope`. -/
def matchesScope (rule : GradualRolloutRule) (request : GradualRolloutRequest) : Bool :=
  if (named rule.tenantId).isSome ∧ rule.tenantId ≠ some request.tenantId then false
  else if (named rule.projectId).isSome ∧ rule.projectId ≠ some request.projectId then false
  else true

/-- `compareRuleSpecificity(left, right)` does not put `left` behind `right`. -/
def MoreSpecificFirst (left right : GradualRolloutRule) : Prop := right.specificity ≤ left.specificity

instance : DecidableRel MoreSpecificFirst := fun left right =>
  inferInstanceAs (Decidable (right.specificity ≤ left.specificity))

instance : Std.Total MoreSpecificFirst where
  total left right := Nat.le_total right.specificity left.specificity

instance : IsTrans GradualRolloutRule MoreSpecificFirst where
  trans _ _ _ h h' := Nat.le_trans h' h

end GradualRolloutRule

/-- `selectedRule`: the first match among the sorted rules of the risk tier. -/
def selectedRule (request : GradualRolloutRequest) (rules : List GradualRolloutRule) :
    Option GradualRolloutRule :=
  ((rules.filter (·.riskTier = request.riskTier)).insertionSort
    GradualRolloutRule.MoreSpecificFirst).find? (·.matchesScope request)

/-- A request without an empty field. -/
def GradualRolloutRequest.Valid (request : GradualRolloutRequest) : Prop :=
  request.tenantId ≠ "" ∧ request.projectId ≠ "" ∧ request.rolloutKey ≠ ""

instance (request : GradualRolloutRequest) : Decidable request.Valid :=
  inferInstanceAs (Decidable (_ ∧ _))

/-- `evaluateGradualRolloutPolicy`. -/
def evaluateGradualRolloutPolicy (request : GradualRolloutRequest) (store : RolloutConfigStore) :
    GradualRolloutDecision :=
  if ¬ request.Valid then
    { status := .disabled, reasonCode := .rolloutInputInvalid, evidence := {} }
  else
    match selectedRule request store.listRules with
    | none => { status := .disabled, reasonCode := .rolloutNotConfigured, evidence := {} }
    | some rule =>
      if rule.enabled = false then
        { status := .disabled
          reasonCode := .rolloutDisabled
          evidence :=
            { selectedRuleId := some rule.ruleId
              selectedScope := some rule.resolveScope
              rolloutPercent := some rule.rolloutPercent } }
      else
        let bucket := stableBucket request.rolloutKey
        let isEnabled := decide ((bucket : ℚ) < rule.rolloutPercent)
        { status := if isEnabled then .enabled else .disabled
          reasonCode := if isEnabled then .rolloutMatch else .rolloutDisabled
          evidence :=
            { selectedRuleId := some rule.ruleId
              selectedScope := some rule.resolveScope
              rolloutPercent := some rule.rolloutPercent
              bucket := some bucket } }

end AiOrchestrator
