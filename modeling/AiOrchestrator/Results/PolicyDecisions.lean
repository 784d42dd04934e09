import AiOrchestrator.Execution.Recorders
import AiOrchestrator.Lib.Base64

/-!
# What a policy decision is bound to

`createPolicyInputHash` keeps the first 64 digits of the base 64 text of a seed, so it tells seeds apart just by
their first 48 bytes (`createPolicyInputHash_eq_iff`). `policyDecision_bound_iff` is what that means for the check of
a decision before its action: the exact pairs of inputs that it tells apart.
-/

namespace AiOrchestrator

/-! ### What a policy decision is bound to -/

/-- The bytes of the seed that the input hash depends on. -/
def PersistPolicyDecisionInput.hashedBytes (input : PersistPolicyDecisionInput) : List Nat :=
  (Text.utf8Bytes input.inputHashSeed).take 48

/-- **The input hash** is as good as the first 48 bytes of the seed. -/
theorem createPolicyInputHash_eq_iff (s t : String) :
    createPolicyInputHash s = createPolicyInputHash t ↔
      (Text.utf8Bytes s).take 48 = (Text.utf8Bytes t).take 48 :=
  Text.sliceTo_base64Url_inj s t 16

/-- The check of a decision that was made for another input. -/
theorem requirePersisted_eq_ok_iff {decisionId decidedAt : String} {state : ProjectState}
    {input : PersistPolicyDecisionInput} {actionType : ExecutionPolicyActionType} {inputHash : String} :
    requirePersisted actionType inputHash (some (makePolicyDecision decisionId decidedAt state input)) =
        .ok () ↔
      createPolicyInputHash input.inputHashSeed = inputHash := by
  unfold requirePersisted makePolicyDecision
  by_cases hhash : createPolicyInputHash input.inputHashSeed = inputHash
  · simp [hhash]
  · simp [hhash]

/-- The seed of the decision on a commit. -/
def commitSeed (runId taskId commitMessage : String) : String :=
  s!"{runId}:{taskId}:git_commit:{commitMessage}"

/-- **Run and task fill the hash**: with 35 bytes in both, as a run id alone has, every commit message has
the same hash. -/
theorem commitMessages_same_hash {runId taskId : String}
    (h : 35 ≤ (Text.utf8Bytes runId).length + (Text.utf8Bytes taskId).length)
    (message message' : String) :
    createPolicyInputHash (commitSeed runId taskId message) =
      createPolicyInputHash (commitSeed runId taskId message') := by
  have hsplit : ∀ message, Text.utf8Bytes (commitSeed runId taskId message) =
      Text.utf8Bytes (s!"{runId}:{taskId}:git_commit:") ++ Text.utf8Bytes message := by
    intro message
    rw [← Text.utf8Bytes_append]
    rfl
  have hlength : 48 ≤ (Text.utf8Bytes (s!"{runId}:{taskId}:git_commit:")).length := by
    have hconst : (Text.utf8Bytes ":").length = 1 ∧ (Text.utf8Bytes ":git_commit:").length = 12 := by
      decide
    have heq : (s!"{runId}:{taskId}:git_commit:") = runId ++ ":" ++ taskId ++ ":git_commit:" := rfl
    rw [heq, Text.utf8Bytes_append, Text.utf8Bytes_append, Text.utf8Bytes_append]
    simp only [List.length_append, hconst.1, hconst.2]
    omega
  rw [createPolicyInputHash_eq_iff, hsplit, hsplit, List.take_append_of_le_length hlength,
    List.take_append_of_le_length hlength]

/-- **Policy decisions and their inputs.** Decisions of equal hashes are of equal seeds exactly if the seeds
are equal or differ within their first 48 bytes; and exactly then a decision of another seed is stale. -/
theorem policyDecision_bound_iff (decisionId decidedAt decisionId' decidedAt' : String)
    (state state' : ProjectState) (input input' : PersistPolicyDecisionInput) :
    (((makePolicyDecision decisionId decidedAt state input).inputHash =
          (makePolicyDecision decisionId' decidedAt' state' input').inputHash →
        input.inputHashSeed = input'.inputHashSeed) ↔
      input.inputHashSeed = input'.inputHashSeed ∨ input.hashedBytes ≠ input'.hashedBytes) ∧
    ((requirePersisted input.actionType (makePolicyDecision decisionId decidedAt state input).inputHash
          (some (makePolicyDecision decisionId' decidedAt' state' input')) = .ok () →
        input.inputHashSeed = input'.inputHashSeed) ↔
      input.inputHashSeed = input'.inputHashSeed ∨ input.hashedBytes ≠ input'.hashedBytes) := by
  have hhash : ∀ {a b : PersistPolicyDecisionInput},
      createPolicyInputHash a.inputHashSeed = createPolicyInputHash b.inputHashSeed ↔
        a.hashedBytes = b.hashedBytes := createPolicyInputHash_eq_iff _ _
  constructor
  · show (createPolicyInputHash _ = createPolicyInputHash _ → _) ↔ _
    rw [hhash, imp_iff_not_or, or_comm]
  · rw [requirePersisted_eq_ok_iff]
    show (createPolicyInputHash _ = createPolicyInputHash _ → _) ↔ _
    rw [hhash, imp_iff_not_or, or_comm, ne_comm]

/-- Two commits of one task of a run. -/
def sampleCommit (commitMessage : String) : PersistPolicyDecisionInput :=
  stepPolicyGate "3f2b8c1e-9a47-4c56-8d10-7e5f2a6b9c04" "task-1" "task-1:git_commit" .gitCommit
    (commitSeed "3f2b8c1e-9a47-4c56-8d10-7e5f2a6b9c04" "task-1" commitMessage) ["REPO_CHANGES_PRESENT"]

/-- **A decision on another commit message** is not stale. -/
theorem sampleCommits_not_bound :
    createPolicyInputHash (sampleCommit "Add the parser").inputHashSeed =
        createPolicyInputHash (sampleCommit "Drop all tests").inputHashSeed ∧
      (sampleCommit "Add the parser").inputHashSeed ≠ (sampleCommit "Drop all tests").inputHashSeed := by
  constructor
  · exact commitMessages_same_hash (by decide) _ _
  · decide

end AiOrchestrator
