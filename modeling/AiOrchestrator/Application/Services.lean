import AiOrchestrator.Execution.Recorders

/-!
# Operator services

`packages/application/src/approval-gate-service.ts` and the failure operations of
`packages/application/src/control-plane-service.ts`: a service loads the state, changes
one approval request or one failure, and saves the whole. Services hold no lease.
-/

namespace AiOrchestrator

/-! ### Approvals -/

/-- `ApprovalDecisionLinkInput`. -/
structure ApprovalDecisionLinkInput where
  policyDecisionId : Option String := none
  evidenceId : Option String := none

/-- What an operator decides about a request. -/
inductive ApprovalDecision
  | approve (approvedBy : String)
  | reject (rejectedBy rejectionReason : String)
  | resume (resumedBy : String)

namespace ApprovalDecision

/-- The word for the decision in error messages. -/
def operation : ApprovalDecision → String
  | .approve _ => "approve"
  | .reject _ _ => "reject"
  | .resume _ => "resume"

/-- The status that a request must have for the decision. -/
def required : ApprovalDecision → ApprovalStatus
  | .approve _ | .reject _ _ => .pending
  | .resume _ => .approved

/-- The status that the decision gives a request. -/
def next : ApprovalDecision → ApprovalStatus
  | .approve _ => .approved
  | .reject _ _ => .rejected
  | .resume _ => .resumed

def eventType : ApprovalDecision → DomainEventType
  | .approve _ => .approvalApproved
  | .reject _ _ => .approvalRejected
  | .resume _ => .approvalResumed

/-- The ids that the operator links replace those of the request, when present. -/
def link (links : ApprovalDecisionLinkInput) (request : ApprovalRequest) : ApprovalRequest :=
  { request with
    decisionPolicyDecisionId :=
      if truthy links.policyDecisionId then links.policyDecisionId
      else request.decisionPolicyDecisionId
    decisionEvidenceId :=
      if truthy links.evidenceId then links.evidenceId else request.decisionEvidenceId }

/-- **`approve`, `reject` and `resume`** on the request. -/
def mutate (decision : ApprovalDecision) (links : ApprovalDecisionLinkInput) (now : String)
    (request : ApprovalRequest) : Except RuntimeError ApprovalRequest :=
  if request.status ≠ decision.required then
    .error (.workflowPolicy
      s!"Cannot {decision.operation} request in status {request.status.text}")
  else
    .ok <| link links <|
      match decision with
      | .approve approvedBy =>
        { request with
          status := .approved, approvedBy := some approvedBy, approvedAt := some now }
      | .reject rejectedBy rejectionReason =>
        { request with
          status := .rejected, rejectedBy := some rejectedBy, rejectedAt := some now
          rejectionReason := some rejectionReason }
      | .resume resumedBy =>
        { request with status := .resumed, resumedBy := some resumedBy, resumedAt := some now }

end ApprovalDecision

/-- The write of a service: no lease is asked for. -/
def saveUnguarded (events : List DomainEvent) : Action Unit := request (.write (.save events))

/-- `makeEvent` of a service. -/
def newServiceEvent (eventType : DomainEventType) (payload : List (String × Json Nat))
    (runId : Option String) : Action DomainEvent := do
  let id : String ← request .randomUUID
  let createdAt : String ← request .now
  pure (makeEvent id createdAt eventType payload runId)

/-- **`ApprovalGateService.update`**, for one of the three decisions. -/
def decideApproval (requestId : String) (decision : ApprovalDecision)
    (links : ApprovalDecisionLinkInput) : Action Unit := do
  request .load
  let state : ProjectState ← request .readState
  match state.approvals.findIdx? fun entry => entry.id = requestId with
  | none => throw (.workflowPolicy s!"Approval request not found: {requestId}")
  | some index =>
    match state.approvals[index]? with
    | none => throw (.workflowPolicy s!"Approval request not found: {requestId}")
    | some approval => do
      let now : String ← request .now
      let updated ← Act.ofExcept (decision.mutate links now approval)
      request (.update (.setApproval index updated))
      let event ← newServiceEvent decision.eventType
        ([("approvalRequestId", .str updated.id), ("runId", .str updated.runId),
            ("taskId", .str updated.taskId),
            ("requestedAction", .str updated.requestedAction.text),
            ("status", .str updated.status.text)] ++
          optionalText "policyDecisionId" (presentText links.policyDecisionId) ++
          optionalText "evidenceId" (presentText links.evidenceId))
        (some updated.runId)
      saveUnguarded [event]

/-! ### Failures -/

/-- **`ControlPlaneService.resumeFailure`**. -/
def resumeFailure (failureId : String) : Action Unit := do
  request .load
  let state : ProjectState ← request .readState
  let now : String ← request .now
  let (_, failure) ← Act.ofExcept (state.resumeFailure failureId now)
  request (.update (.resumeFailure failureId now))
  let event ← newServiceEvent .approvalResumed
    [("failureId", .str failureId), ("taskId", .str failure.taskId)] failure.checkpointRunId
  saveUnguarded [event]

/-- **`ControlPlaneService.replayFromFailureCheckpoint`**. -/
def replayFromFailureCheckpoint (failureId : String) : Action Unit := do
  request .load
  let state : ProjectState ← request .readState
  let now : String ← request .now
  let (_, failure) ← Act.ofExcept (state.replayFromFailureCheckpoint failureId now)
  request (.update (.replayFailure failureId now))
  let event ← newServiceEvent .taskSelected
    [("taskId", .str failure.taskId), ("replayFromFailureId", .str failure.id)]
    failure.checkpointRunId
  saveUnguarded [event]

end AiOrchestrator
