import AiOrchestrator.Execution.World

/-!
# What operations change

The frame of the operations of a run: a write of the store takes over the revision of the
result and changes nothing else of the copy (`StoreCall.apply_copy`), a flush changes the
copy's step log and revision (`flushToState_copy`), and every other operation that is
neither an update nor a load leaves the copy but for its revision (`copy_of_handle`).
-/

namespace AiOrchestrator

theorem Except.bind_ok_iff {ε α β : Type} {r : Except ε α} {f : α → Except ε β} {b : β} :
    (r >>= f) = .ok b ↔ ∃ a, r = .ok a ∧ f a = .ok b := by
  cases r with
  | error e =>
    constructor
    · intro h
      cases h
    · rintro ⟨a, h, -⟩
      cases h
  | ok a =>
    constructor
    · exact fun h => ⟨a, rfl, h⟩
    · rintro ⟨a', h, h'⟩
      cases h
      exact h'

/-- The state with another revision. -/
def ProjectState.atRevision (state : ProjectState) (revision : Nat) : ProjectState :=
  { state with revision := revision }

/-- **A write** changes nothing of the copy but its revision. -/
theorem StoreCall.apply_copy {host : Host} {id createdAt : String} {state state' : ProjectState}
    {store store' : Store} {call : StoreCall} {result : call.Result}
    (h : call.apply host id createdAt state store = .ok (result, state', store')) :
    ∃ revision, state' = state.atRevision revision := by
  cases call with
  | recordEvent event =>
    cases h
    exact ⟨state.revision, rfl⟩
  | save events =>
    obtain ⟨next, -, hnext⟩ := Except.bind_ok_iff.mp h
    cases hnext
    exact ⟨next.revision, rfl⟩
  | recordFailure input =>
    obtain ⟨⟨next, failure, retryCount⟩, -, hnext⟩ := Except.bind_ok_iff.mp h
    cases hnext
    exact ⟨next.revision, rfl⟩
  | recordArtifact artifact =>
    obtain ⟨next, -, hnext⟩ := Except.bind_ok_iff.mp h
    cases hnext
    exact ⟨next.revision, rfl⟩
  | recordPolicyDecision decision =>
    obtain ⟨next, -, hnext⟩ := Except.bind_ok_iff.mp h
    cases hnext
    exact ⟨next.revision, rfl⟩
  | recordRunStep entry =>
    obtain ⟨next, -, hnext⟩ := Except.bind_ok_iff.mp h
    cases hnext
    exact ⟨state.revision, rfl⟩

/-- The state with a longer step log, at another revision. -/
def ProjectState.withSteps (state : ProjectState) (steps : List RunStepLogEntry) (revision : Nat) :
    ProjectState :=
  { state with
    execution := { state.execution with runStepLog := state.execution.runStepLog ++ steps }
    revision := revision }

theorem flushToState_copy (shared : Shared) (state : ProjectState) :
    ∃ steps revision, (flushToState shared state).1 = state.withSteps steps revision := by
  have hsame : state = state.withSteps [] state.revision := by
    simp only [ProjectState.withSteps, List.append_nil]
  unfold flushToState
  split
  · exact ⟨[], state.revision, hsame⟩
  · exact ⟨[], state.revision, hsame⟩
  · next step steps hbuffer => exact ⟨step :: steps, _, rfl⟩

/-- **The frame of an operation**: one that is neither an update, a flush nor a load leaves
the copy as it is, but for its revision. -/
theorem copy_of_handle (host : Host) (answer : Answer) {o : Op} (w : World)
    (hload : o ≠ .load) (hflush : o ≠ .flush) (hupdate : ∀ u, o ≠ .update u) :
    ∃ revision, (Op.handle host answer o w).2.state = w.state.atRevision revision := by
  have hsame : ∃ revision, w.state = w.state.atRevision revision := ⟨w.state.revision, rfl⟩
  cases o with
  | load => exact absurd rfl hload
  | flush => exact absurd rfl hflush
  | update u => exact absurd rfl (hupdate u)
  | write call =>
    simp only [Op.handle, Answer.fallible]
    split
    · exact hsame
    · split
      · next happly => exact StoreCall.apply_copy happly
      · exact hsame
  | loadRevision =>
    simp only [Op.handle, Answer.fallible]
    split
    · exact hsame
    · exact ⟨_, rfl⟩
  | executeRole name req context =>
    simp only [Op.handle, Answer.fallible, World.markExecuted]
    split <;> split <;> exact hsame
  | executeRoleStep name req context observations =>
    simp only [Op.handle, Answer.fallible, World.markExecuted]
    split <;> split <;> exact hsame
  | now | dateNow | randomUUID | aborted | readState | selectionState | readShared | readCost
  | updateShared u => exact hsame
  | loadScope | getPolicyDecision query | acquireRunLease | requireValid | release
  | validateRole name response | executeTool call context | mkdtemp start | git command =>
    simp only [Op.handle, Answer.fallible]
    split <;> exact hsame

end AiOrchestrator
