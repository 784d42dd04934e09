import AiOrchestrator.Core.Validation
import AiOrchestrator.Core.Errors
import AiOrchestrator.Lib.Json

/-!
# Artifacts and events

The checks an artifact passes before a store accepts it
(`packages/core/src/artifacts.ts`, `artifact-schema-registry.ts`), the way artifacts
and events are made, and the risk classes of actions.
-/

namespace AiOrchestrator

/-! ### Artifacts -/

/-- `/key|token|secret/i.test(value)`. -/
def isSecretLike (value : String) : Bool :=
  let lower := Text.lowerAscii value
  Text.includes lower "key" || Text.includes lower "token" || Text.includes lower "secret"

def validateArtifact (artifact : ArtifactRecord) : List String :=
  (if Text.isBlank artifact.title then ["Artifact title is required"] else []) ++
  (if artifact.metadata.values.any isSecretLike then
    ["Artifact metadata must not contain secret-like values"] else [])

/-- `!artifact.metadata[key]?.trim()`. -/
def metadataMissing (artifact : ArtifactRecord) (key : String) : Bool :=
  match artifact.metadata.get? key with
  | none => true
  | some value => Text.isBlank value

def requireMetadata (artifact : ArtifactRecord) (keys : List String) : List String :=
  (keys.filter (metadataMissing artifact)).map fun key =>
    s!"Artifact {artifact.type.text} requires metadata.{key}"

def requireAnyMetadata (artifact : ArtifactRecord) (keys : List String) : List String :=
  if keys.any fun key => !metadataMissing artifact key then []
  else
    [s!"Artifact {artifact.type.text} requires at least one of metadata." ++
      String.intercalate ", metadata." keys]

/-- `ARTIFACT_VALIDATORS`: the metadata each type requires. -/
def artifactValidator : ArtifactType → ArtifactRecord → List String
  | .bootstrapAnalysis, a => requireMetadata a ["promptId", "recommendedNextStep"]
  | .architectureAnalysis, a => requireMetadata a ["promptId", "findings"]
  | .documentation, a => requireMetadata a ["promptId"]
  | .releaseAssessment, a => requireMetadata a ["promptId", "verdict"]
  | .stateIntegrityReport, a => requireMetadata a ["promptId", "ok"]
  | .integrationExport, a => requireMetadata a ["promptId", "mappedEntities"]
  | .optimizedPrompt, a => requireMetadata a ["taskId", "promptId"]
  | .runSummary, a => requireAnyMetadata a ["status", "summary"]
  | .backlogExport, _ => []
  | .plan, a => requireMetadata a ["promptId", "milestoneId"]
  | .testPlan, _ => []
  | .report, _ => []
  | .gitLifecycle, a => requireMetadata a ["taskId", "runId", "stage"]

/-- `defaultArtifactSchemaRegistry.validate`. -/
def ArtifactSchemaRegistry.validate (artifact : ArtifactRecord) : List String :=
  validateArtifact artifact ++ artifactValidator artifact.type artifact

/-- `makeArtifact` with the id and the time it draws. -/
def makeArtifact (id createdAt : String) (type : ArtifactType) (title : String)
    (metadata : List (String × String)) : ArtifactRecord where
  id := id
  type := type
  title := title
  location := none
  metadata := Dict.ofList metadata
  createdAt := createdAt

@[simp] theorem makeArtifact_type (id createdAt : String) (type : ArtifactType) (title : String)
    (metadata : List (String × String)) :
    (makeArtifact id createdAt type title metadata).type = type := rfl

@[simp] theorem makeArtifact_title (id createdAt : String) (type : ArtifactType) (title : String)
    (metadata : List (String × String)) :
    (makeArtifact id createdAt type title metadata).title = title := rfl

/-- The schema of a made artifact, when its metadata keys are distinct. -/
theorem makeArtifact_schemaOk_iff {id createdAt title : String} {type : ArtifactType}
    {metadata : List (String × String)} (hkeys : (metadata.map Prod.fst).Nodup) :
    (makeArtifact id createdAt type title metadata).SchemaOk ↔
      id ≠ "" ∧ title ≠ "" ∧ (∀ entry ∈ metadata, entry.2 ≠ "") ∧
        Text.isIsoDateTime createdAt = true := by
  have hvalues : (makeArtifact id createdAt type title metadata).metadata.values =
      metadata.map Prod.snd := Dict.values_ofList hkeys
  unfold ArtifactRecord.SchemaOk
  rw [hvalues, List.forall_mem_map]
  simp [makeArtifact, NonemptyIfPresent]

/-! ### Events -/

inductive DomainEventType
  | bootstrapCompleted | discoveryCompleted | architectureAnalyzed | backlogPlanned | taskSplit
  | releaseAssessed | stateIntegrityChecked | exportPrepared | taskSelected | promptGenerated
  | roleExecuted | roleToolRequested | roleObservationRecorded | toolEvidenceRecorded
  | approvalRequested | approvalApproved | approvalRejected | approvalResumed | reviewApproved
  | reviewRejected | testPassed | testFailed | taskCompleted | taskBlocked | stateCommitted
deriving DecidableEq, Repr

structure DomainEvent where
  id : String
  eventType : DomainEventType
  createdAt : String
  payload : List (String × Json Nat)
  runId : Option String
  correlationId : Option String

/-- `makeEvent` with the id and the time it draws; the callers pass at most a run id,
and an empty one counts as none. -/
def makeEvent (id createdAt : String) (eventType : DomainEventType)
    (payload : List (String × Json Nat)) (runId : Option String) : DomainEvent where
  id := id
  eventType := eventType
  createdAt := createdAt
  payload := payload
  runId := if truthy runId then runId else none
  correlationId := if truthy runId then runId else none

/-! ### Risk classes -/

/-- `EXECUTION_POLICY_RISK_MATRIX`. -/
def classifyExecutionPolicyActionRisk : ExecutionPolicyActionType → ExecutionPolicyRiskLevel
  | .artifactWrite => .low
  | .externalApi => .high
  | .gitCommit => .medium
  | .gitPush => .high
  | .prDraft => .high

/-- `APPROVAL_REQUEST_RISK_MATRIX`. -/
def classifyApprovalRequestedActionRisk : ApprovalRequestedAction → ApprovalRisk
  | .dependencyBump => .medium
  | .gitPush | .prDraft | .dbMigration | .fileDelete | .apiBreakingChange | .securityAuthChange
  | .productionConfigChange | .bulkFileChange => .high

end AiOrchestrator
