import AiOrchestrator.Tools.LocalToolSet

/-!
# Writes of the local tool set

What a request to the tool set writes, for any answers of the system. Of the calls of the adapters
only `mkdir` and `writeFile` write, and only `file_write` makes them, exactly where its checks accept
the path (`WriteAccepted`, `run_fileWrite`); besides, a process that a tool starts may write. The
permission scope of the context is not among the checks.
-/

namespace AiOrchestrator

/-- The calls that write no file themselves. -/
def SystemCall.Reads : SystemCall → Prop
  | mkdir _ | writeFile _ _ => False
  | _ => True

/-- The calls of the checks before a write. -/
def SystemCall.Checks : SystemCall → Prop
  | existsSync _ | realpathSync _ | parentAborted | timerFired | aborted | addModifiedFile _ => True
  | readFile _ | mkdir _ | writeFile _ _ | readdir _ | execFile _ _ _ | searchWithNode _ _ => False

theorem SystemCall.Checks.reads {o : SystemCall} (h : o.Checks) : o.Reads := by
  cases o <;> trivial

/-- The state of the surroundings, with the modified files of the tool set. -/
abbrev ToolState (σ : Type) := σ × List String

/-- A call that was made, with its answer. -/
abbrev CallEvent (σ : Type) := Prog.Event SystemCall SystemCall.Ans (ToolState σ)

/-- A call that writes: `mkdir`, `writeFile`, or a process that has modified files. -/
def CallEvent.IsWrite {σ : Type} : CallEvent σ → Prop
  | ⟨.mkdir _, _, _⟩ | ⟨.writeFile _ _, _, _⟩ => True
  | ⟨.execFile _ _ _, outcome, _⟩ => outcome.modified ≠ []
  | _ => False

/-- A process that has modified files. -/
def CallEvent.IsWritingProcess {σ : Type} : CallEvent σ → Prop
  | ⟨.execFile _ _ _, outcome, _⟩ => outcome.modified ≠ []
  | _ => False

section Events

variable {σ : Type} {e : CallEvent σ}

theorem CallEvent.isWrite_of_not_reads (h : ¬ e.op.Reads) : e.IsWrite := by
  obtain ⟨o, x, s⟩ := e
  cases o <;> first | trivial | exact absurd trivial h

theorem CallEvent.isWritingProcess_of_reads (h : e.op.Reads) (hwrite : e.IsWrite) :
    e.IsWritingProcess := by
  obtain ⟨o, x, s⟩ := e
  cases o <;> first | exact hwrite | exact h.elim

theorem CallEvent.IsWritingProcess.isWrite (h : e.IsWritingProcess) : e.IsWrite := by
  obtain ⟨o, x, s⟩ := e
  cases o <;> first | exact h | exact h.elim

theorem CallEvent.not_isWrite_of_checks (h : e.op.Checks) : ¬ e.IsWrite := by
  obtain ⟨o, x, s⟩ := e
  cases o <;> first | exact id | exact h.elim

end Events

namespace LocalToolSet

section Run

variable {σ : Type} (answer : (o : SystemCall) → σ → o.Ans × σ)

/-- Calls are answered by the surroundings, except on the modified files. -/
def handle : (o : SystemCall) → ToolState σ → o.Ans × ToolState σ
  | .addModifiedFile path, (s, modified) =>
    ((modified.insert path).length, s, modified.insert path)
  | o, (s, modified) => ((answer o s).1, (answer o s).2, modified)

variable (host : ToolHost) (policy : ToolPolicyAdapter)

/-- **A request to the tool set**: its result, the state after it, and the calls that were made,
newest first. -/
def run (request : UnifiedToolRequest) (context : ToolExecutionWorkspaceContext) (s : ToolState σ) :
    Except ToolError UnifiedToolResult × ToolState σ × List (CallEvent σ) :=
  Act.exec (Prog.recording (handle answer)) (execute host policy request context) (s, [])

/-- What a path is normalized to, and the state after that. -/
def normalized (path : String) (s : ToolState σ) : String × ToolState σ :=
  (normalizePath host path).exec (handle answer) s

/-- The file that a request names. -/
def requestedFile (input : Record (Json Nat)) : String :=
  match input.get? "filePath" with
  | some (.str filePath) => filePath
  | _ => ""

/-- The checks of `writeFile` accept a path: the signal has not fired, the write mode and the paths
allow the write, and it modifies no file beyond the maximum. -/
def PathAccepted (filePath : String) (s : ToolState σ) : Prop :=
  (handle answer .aborted s).1 = none ∧
    let (target, s) := normalized answer host filePath (handle answer .aborted s).2
    policy.checkWritePath target = .ok () ∧
      policy.checkModifiedFiles (s.2.insert target).length = .ok ()

/-- **The checks of a write**: the input is valid, the workspace is allowed, the signal has not
fired, and the path is accepted. -/
def WriteAccepted (request : UnifiedToolRequest) (context : ToolExecutionWorkspaceContext)
    (s : ToolState σ) : Prop :=
  validateToolInput host request.toolName request.input = .ok () ∧
    Text.isBlank context.workspaceRoot = false ∧
    let (root, s) := normalized answer host context.workspaceRoot s
    policy.inScope root = true ∧
      (handle answer .parentAborted s).1 = false ∧
      PathAccepted answer host policy (requestedFile request.input)
        (handle answer .parentAborted s).2

end Run

/-! ### Calls that write nothing -/

section Reads

variable {host : ToolHost} {policy : ToolPolicyAdapter}

theorem uses_system {P : SystemCall → Prop} {o : SystemCall} (h : P o) : Act.Uses P (system o) :=
  Act.uses_perform h

theorem reads_of_checks {α : Type} {m : ToolAction α} (h : Act.Uses SystemCall.Checks m) :
    Act.Uses SystemCall.Reads m :=
  h.mono fun _ ho => ho.reads

theorem uses_normalizePath (path : String) : (normalizePath host path).Uses SystemCall.Checks := by
  refine Prog.uses_perform_bind trivial fun found => Prog.uses_perform_bind trivial fun real => ?_
  cases real <;> trivial

theorem uses_assertWorkspaceAllowed (root : String) :
    Act.Uses SystemCall.Checks (policy.assertWorkspaceAllowed host root) := by
  refine Act.uses_bind (Act.uses_lift (uses_normalizePath root)) fun resolved => ?_
  split
  · exact Act.uses_throw _
  · exact Act.uses_pure _

theorem uses_requireExecutionOptions (context : ToolExecutionWorkspaceContext) :
    Act.Uses SystemCall.Checks (requireExecutionOptions host policy context) := by
  unfold requireExecutionOptions
  split
  · exact Act.uses_throw _
  · exact Act.uses_bind (uses_assertWorkspaceAllowed _) fun _ => Act.uses_pure _

theorem uses_assertNotAborted : Act.Uses SystemCall.Checks assertNotAborted := by
  refine Act.uses_bind (uses_system trivial) fun reason => ?_
  cases reason
  · exact Act.uses_pure _
  · exact Act.uses_throw _

theorem uses_execFileAsync (command : String) (args : List String) (cwd : String) :
    Act.Uses SystemCall.Reads (execFileAsync command args cwd) := by
  refine Act.uses_bind (uses_system trivial) fun outcome => ?_
  split
  · exact Act.uses_throw _
  · exact Act.uses_pure _

theorem uses_typeScriptCheck (cwd : String) : Act.Uses SystemCall.Reads (typeScriptCheck cwd) := by
  refine Act.uses_bind (uses_system trivial) fun outcome => ?_
  split <;> exact Act.uses_pure _

theorem uses_shellExec (input : Record (Json Nat)) (root : String) :
    Act.Uses SystemCall.Reads (shellExec host policy input root) := by
  unfold shellExec
  split
  · split
    · exact Act.uses_throw _
    refine Act.uses_bind (Act.uses_ofExcept _) fun args => ?_
    refine Act.uses_bind (Act.uses_ofExcept _) fun command => ?_
    refine Act.uses_bind (reads_of_checks (uses_assertWorkspaceAllowed root)) fun cwd => ?_
    refine Act.uses_bind (uses_system trivial) fun outcome => ?_
    split <;> exact Act.uses_pure _
  · exact Act.uses_throw _

theorem uses_testingRun (input : Record (Json Nat)) (root : String) :
    Act.Uses SystemCall.Reads (testingRun host policy input root) := by
  unfold testingRun
  split
  · split
    · exact Act.uses_throw _
    · exact uses_shellExec _ root
  · exact Act.uses_throw _

theorem uses_resolveSearchRoot (input : Option (Json Nat)) (root : String) :
    Act.Uses SystemCall.Checks (resolveSearchRoot host policy input root) := by
  unfold resolveSearchRoot
  split
  · split
    · exact Act.uses_pure _
    · exact uses_assertWorkspaceAllowed _
  · exact Act.uses_pure _

theorem uses_searchRepo (input : Record (Json Nat)) (root : String) :
    Act.Uses SystemCall.Reads (searchRepo host policy input root) := by
  unfold searchRepo
  split
  · split
    · exact Act.uses_throw _
    refine Act.uses_bind (reads_of_checks (uses_assertWorkspaceAllowed root)) fun root => ?_
    refine Act.uses_bind (reads_of_checks (uses_resolveSearchRoot _ root)) fun cwd => ?_
    refine Act.uses_bind (Act.uses_ofExcept _) fun command => ?_
    refine Act.uses_bind (uses_system trivial) fun outcome => ?_
    split
    · exact Act.uses_pure _
    split
    · exact Act.uses_pure _
    · exact Act.uses_bind (uses_system trivial) fun found => Act.uses_ofExcept _
    · exact Act.uses_throw _
  · exact Act.uses_throw _

/-- **The other tools** make no call that writes. -/
theorem uses_adapterExecute {name : ToolCallName} (hname : name ≠ .fileWrite)
    (request : UnifiedToolRequest) (context : ToolExecutionWorkspaceContext) :
    Act.Uses SystemCall.Reads (adapterExecute host policy name request context) := by
  have hexec : ∀ command args cwd {α : Type} (f : String → ToolAction α),
      (∀ stdout, Act.Uses SystemCall.Reads (f stdout)) →
      Act.Uses SystemCall.Reads (execFileAsync command args cwd >>= f) :=
    fun command args cwd α f hf => Act.uses_bind (uses_execFileAsync command args cwd) hf
  cases name with
  | fileWrite => exact absurd rfl hname
  | fileRead =>
    refine Act.uses_bind (Act.uses_ofExcept _) fun filePath => ?_
    refine Act.uses_bind (uses_system trivial) fun read => ?_
    exact Act.uses_bind (Act.uses_ofExcept _) fun content => Act.uses_pure _
  | fileList =>
    refine Act.uses_bind (Act.uses_ofExcept _) fun dirPath => ?_
    refine Act.uses_bind ?_ fun entries => Act.uses_pure _
    refine Act.uses_bind (reads_of_checks uses_assertNotAborted) fun _ => ?_
    refine Act.uses_bind (uses_system trivial) fun read => ?_
    refine Act.uses_bind (Act.uses_ofExcept _) fun entries => ?_
    exact Act.uses_bind (reads_of_checks uses_assertNotAborted) fun _ => Act.uses_pure _
  | fileExists =>
    refine Act.uses_bind (Act.uses_ofExcept _) fun filePath => ?_
    refine Act.uses_bind (reads_of_checks uses_assertNotAborted) fun _ => ?_
    exact Act.uses_bind (uses_system trivial) fun found => Act.uses_pure _
  | gitStatus => exact hexec _ _ _ _ fun _ => Act.uses_pure _
  | gitDiff =>
    refine Act.uses_bind (Act.uses_ofExcept _) fun staged => ?_
    exact hexec _ _ _ _ fun _ => Act.uses_pure _
  | gitCurrentBranch => exact hexec _ _ _ _ fun _ => Act.uses_pure _
  | typescriptCheck =>
    exact Act.uses_bind (uses_typeScriptCheck _) fun _ => Act.uses_pure _
  | typescriptDiagnostics =>
    exact Act.uses_bind (uses_typeScriptCheck _) fun _ => Act.uses_pure _
  | shellExec => exact Act.uses_bind (uses_shellExec _ _) fun _ => Act.uses_pure _
  | testingRun => exact Act.uses_bind (uses_testingRun _ _) fun _ => Act.uses_pure _
  | diffWorkspace => exact hexec _ _ _ _ fun _ => Act.uses_pure _
  | searchRepo => exact Act.uses_bind (uses_searchRepo _ _) fun _ => Act.uses_pure _

theorem uses_withToolTimeout {execute : ToolAction ToolOutput}
    (h : Act.Uses SystemCall.Reads execute) (timeoutMs : Nat) (toolName : String) :
    Act.Uses SystemCall.Reads (withToolTimeout execute timeoutMs toolName) := by
  refine Act.uses_bind (uses_system trivial) fun aborted => ?_
  split
  · exact Act.uses_throw _
  refine Act.uses_bind (Act.uses_attempt h) fun result => ?_
  refine Act.uses_bind (uses_system trivial) fun fired => ?_
  split
  · exact Act.uses_throw _
  · exact Act.uses_ofExcept _

/-- A request other than `file_write` makes no call that writes. -/
theorem uses_execute {request : UnifiedToolRequest} (h : request.toolName ≠ "file_write")
    (context : ToolExecutionWorkspaceContext) :
    Act.Uses SystemCall.Reads (execute host policy request context) := by
  refine Act.uses_bind (Act.uses_ofExcept _) fun _ => ?_
  refine Act.uses_bind (reads_of_checks (uses_requireExecutionOptions context)) fun context => ?_
  split
  · exact Act.uses_throw _
  · next name hparse =>
    have hname : name ≠ .fileWrite := by
      rintro rfl
      have htext := List.find?_some hparse
      exact h (of_decide_eq_true htext).symm
    refine Act.uses_bind (Act.uses_attempt ?_) fun result => ?_
    · exact uses_withToolTimeout (uses_adapterExecute hname request context) _ _
    · exact Act.uses_pure _

end Reads

/-! ### The tool that writes -/

section FileWrite

variable {σ : Type} (answer : (o : SystemCall) → σ → o.Ans × σ) (host : ToolHost)
  (policy : ToolPolicyAdapter)

theorem exec_normalizePath (path : String) (s : ToolState σ) (record : List (CallEvent σ)) :
    ∃ done, Act.exec (Prog.recording (handle answer))
        (ExceptT.lift (normalizePath host path) : ToolAction String) (s, record) =
        (.ok (normalized answer host path s).1, (normalized answer host path s).2,
          done ++ record) ∧
      ∀ e ∈ done, e.op.Checks := by
  obtain ⟨done, hexec, -, huses⟩ :=
    Prog.exec_recording (handle answer) (normalizePath host path) s record
  refine ⟨done, ?_, huses _ (uses_normalizePath path)⟩
  rw [Act.exec_lift, hexec]
  rfl

theorem exec_assertWriteAllowed (path : String) (s : ToolState σ) (record : List (CallEvent σ)) :
    ∃ result s' done, Act.exec (Prog.recording (handle answer))
        (policy.assertWriteAllowed host path) (s, record) = (result, s', done ++ record) ∧
      (∀ e ∈ done, e.op.Checks) ∧
      ((∃ guardedPath, result = .ok guardedPath) ↔
        policy.checkWritePath (normalized answer host path s).1 = .ok () ∧
          policy.checkModifiedFiles ((normalized answer host path s).2.2.insert
            (normalized answer host path s).1).length = .ok ()) := by
  obtain ⟨done, hnormalize, hchecks⟩ := exec_normalizePath answer host path s record
  rcases hnormalized : normalized answer host path s with ⟨target, s₁⟩
  rw [hnormalized] at hnormalize
  rcases hcheck : policy.checkWritePath target with error | u
  · -- the write mode or the paths refuse
    refine ⟨.error error, s₁, done, ?_, hchecks, ?_⟩
    · rw [ToolPolicyAdapter.assertWriteAllowed, Act.exec_bind, hnormalize]
      simp only [hcheck, Act.exec_bind, Act.exec_ofExcept]
    · exact iff_of_false (fun ⟨_, h⟩ => by cases h) fun h => by cases h.1
  let added : CallEvent σ := ⟨.addModifiedFile target, (s₁.2.insert target).length, s₁⟩
  have hadded : ∀ e ∈ added :: done, e.op.Checks := List.forall_mem_cons.mpr ⟨trivial, hchecks⟩
  rcases hsize : policy.checkModifiedFiles (s₁.2.insert target).length with error | u
  · -- too many files are modified
    refine ⟨.error error, (s₁.1, s₁.2.insert target), added :: done, ?_, hadded, ?_⟩
    · rw [ToolPolicyAdapter.assertWriteAllowed, Act.exec_bind, hnormalize]
      simp only [hcheck, Act.exec_bind, Act.exec_ofExcept, system, Act.exec_perform,
        Prog.recording, handle, hsize]
      rfl
    · exact iff_of_false (fun ⟨_, h⟩ => by cases h) fun h => by cases h.2
  · refine ⟨.ok target, (s₁.1, s₁.2.insert target), added :: done, ?_, hadded, ?_⟩
    · rw [ToolPolicyAdapter.assertWriteAllowed, Act.exec_bind, hnormalize]
      simp only [hcheck, Act.exec_bind, Act.exec_ofExcept, system, Act.exec_perform,
        Prog.recording, handle, hsize]
      rfl
    · exact iff_of_true ⟨target, rfl⟩ ⟨rfl, rfl⟩

/-- **`writeFile` writes** exactly where the path is accepted, and fails where it is not. -/
theorem exec_writeFile (filePath content : String) (s : ToolState σ)
    (record : List (CallEvent σ)) :
    ∃ result s' done, Act.exec (Prog.recording (handle answer))
        (writeFile host policy filePath content) (s, record) = (result, s', done ++ record) ∧
      (PathAccepted answer host policy filePath s → ∃ e ∈ done, ¬ e.op.Reads) ∧
      (¬ PathAccepted answer host policy filePath s →
        (∃ error, result = .error error) ∧ ∀ e ∈ done, e.op.Checks) := by
  rcases hreason : handle answer .aborted s with ⟨reason, s₁⟩
  let aborted : CallEvent σ := ⟨.aborted, reason, s⟩
  have haborted : ∀ e ∈ [aborted], e.op.Checks := List.forall_mem_singleton.mpr trivial
  cases reason with
  | some error =>
    refine ⟨.error error, s₁, [aborted], ?_, ?_, fun _ => ⟨⟨error, rfl⟩, haborted⟩⟩
    · simp only [writeFile, assertNotAborted, system, Act.exec_bind, Act.exec_perform,
        Prog.recording, hreason, Act.exec_throw]
      rfl
    · intro haccepted
      rw [PathAccepted, hreason] at haccepted
      cases haccepted.1
  | none =>
    obtain ⟨result, s₂, done, hguard, hchecks, hok⟩ :=
      exec_assertWriteAllowed answer host policy filePath s₁ (aborted :: record)
    have hiff : PathAccepted answer host policy filePath s ↔
        ∃ guardedPath, result = .ok guardedPath := by
      rw [hok, PathAccepted, hreason]
      exact and_iff_right rfl
    rw [hiff]
    cases result with
    | error error =>
      refine ⟨.error error, s₂, done ++ [aborted], ?_, ?_,
        fun _ => ⟨⟨error, rfl⟩, List.forall_mem_append.mpr ⟨hchecks, haborted⟩⟩⟩
      case refine_2 =>
        rintro ⟨_, h⟩
        cases h
      rw [List.append_assoc]
      simp only [writeFile, assertNotAborted, system, Act.exec_bind, Act.exec_perform,
        Prog.recording, hreason, Act.exec_pure, hguard, aborted, List.cons_append, List.nil_append]
    | ok guardedPath =>
      -- the path is accepted, and `mkdir` is called
      let rest : ToolAction Unit := do
        let made : Except ToolError Unit ← system (.mkdir (host.dirname guardedPath))
        Act.ofExcept made
        let written : Except ToolError Unit ← system (.writeFile guardedPath content)
        Act.ofExcept written
      have hexec : Act.exec (Prog.recording (handle answer))
          (writeFile host policy filePath content) (s, record) =
          Act.exec (Prog.recording (handle answer)) rest (s₂, done ++ aborted :: record) := by
        simp only [writeFile, assertNotAborted, system, Act.exec_bind, Act.exec_perform,
          Prog.recording, hreason, Act.exec_pure, hguard, rest, aborted]
      rw [hexec]
      rcases hmkdir : handle answer (.mkdir (host.dirname guardedPath)) s₂ with ⟨made, s₃⟩
      let mkdir : CallEvent σ := ⟨.mkdir (host.dirname guardedPath), made, s₂⟩
      have hmem : ∀ later, mkdir ∈ later ++ mkdir :: (done ++ [aborted]) := fun later =>
        List.mem_append_right later List.mem_cons_self
      cases made with
      | error error =>
        refine ⟨.error error, s₃, [] ++ mkdir :: (done ++ [aborted]), ?_,
          fun _ => ⟨mkdir, hmem [], id⟩, fun h => absurd ⟨guardedPath, rfl⟩ h⟩
        simp only [rest, system, Act.exec_bind, Act.exec_perform, Prog.recording, hmkdir,
          Act.exec_ofExcept, mkdir, List.append_assoc, List.nil_append, List.cons_append]
      | ok u =>
        rcases hwrite : handle answer (.writeFile guardedPath content) s₃ with ⟨written, s₄⟩
        refine ⟨written, s₄,
          [⟨.writeFile guardedPath content, written, s₃⟩] ++ mkdir :: (done ++ [aborted]), ?_,
          fun _ => ⟨mkdir, hmem _, id⟩, fun h => absurd ⟨guardedPath, rfl⟩ h⟩
        simp only [rest, system, Act.exec_bind, Act.exec_perform, Prog.recording, hmkdir, hwrite,
          Act.exec_ofExcept, mkdir, List.append_assoc, List.nil_append, List.cons_append]

/-- A valid input of `file_write` names a file and its content. -/
theorem validateToolInput_fileWrite {input : Record (Json Nat)}
    (h : validateToolInput host "file_write" input = .ok ()) :
    asString (input.get? "filePath") "filePath" = .ok (requestedFile input) ∧
      ∃ content, asString (input.get? "content") "content" = .ok content := by
  have hparse : ToolCallName.parse? "file_write" = some .fileWrite := by decide
  have hissues : ToolCallName.fileWrite.inputSchema.flatMap (fieldIssues host input) = [] := by
    unfold validateToolInput at h
    rw [hparse] at h
    by_contra hne
    simp only [ne_eq, hne, not_false_eq_true, if_true] at h
    cases h
  have hfield : ∀ name, (⟨name, .nonEmptyString, false⟩ : Field) ∈
      ToolCallName.fileWrite.inputSchema →
      ∃ text, input.get? name = some (.str text) ∧ Text.isBlank text = false := by
    intro name hmem
    have hnone := List.flatMap_eq_nil_iff.mp hissues _ hmem
    unfold fieldIssues at hnone
    dsimp only at hnone
    cases hget : input.get? name with
    | none =>
      rw [hget] at hnone
      cases hnone
    | some value =>
      rw [hget] at hnone
      have hrefused := List.map_eq_nil_iff.mp hnone
      cases value with
      | str text =>
        refine ⟨text, rfl, ?_⟩
        by_contra hblank
        simp [FieldSchema.refused, hblank] at hrefused
      | _ => cases hrefused
  obtain ⟨filePath, hfilePath, hfileBlank⟩ := hfield "filePath" (by simp [ToolCallName.inputSchema])
  obtain ⟨content, hcontent, hcontentBlank⟩ := hfield "content" (by simp [ToolCallName.inputSchema])
  constructor
  · rw [requestedFile, hfilePath]
    simp only [asString, hfileBlank, Bool.false_eq_true, if_false]
  · refine ⟨content, ?_⟩
    rw [hcontent]
    simp only [asString, hcontentBlank, Bool.false_eq_true, if_false]

theorem exec_requireExecutionOptions (context : ToolExecutionWorkspaceContext) (s : ToolState σ)
    (record : List (CallEvent σ)) :
    ∃ result s' done, Act.exec (Prog.recording (handle answer))
        (requireExecutionOptions host policy context) (s, record) = (result, s', done ++ record) ∧
      (∀ e ∈ done, e.op.Checks) ∧
      ((∃ context', result = .ok context') ↔
        Text.isBlank context.workspaceRoot = false ∧
          policy.inScope (normalized answer host context.workspaceRoot s).1 = true) ∧
      ∀ context', result = .ok context' →
        s' = (normalized answer host context.workspaceRoot s).2 := by
  rcases hblank : Text.isBlank context.workspaceRoot with - | -
  case true =>
    refine ⟨.error workspaceRequired, s, [], ?_, fun e he => absurd he List.not_mem_nil, ?_, fun _ h => ?_⟩
    · rw [requireExecutionOptions, if_pos hblank]
      rfl
    · exact iff_of_false (fun ⟨_, h⟩ => by cases h) fun h => by cases h.1
    · cases h
  obtain ⟨done, hnormalize, hchecks⟩ := exec_normalizePath answer host context.workspaceRoot s record
  rcases hnormalized : normalized answer host context.workspaceRoot s with ⟨root, s₁⟩
  rw [hnormalized] at hnormalize
  have hexec : Act.exec (Prog.recording (handle answer))
      (requireExecutionOptions host policy context) (s, record) =
      if policy.inScope root then (.ok { context with workspaceRoot := root }, s₁, done ++ record)
      else (.error (safetyViolation s!"Workspace outside allowed scope is forbidden: {root}"), s₁,
        done ++ record) := by
    rw [requireExecutionOptions, if_neg (by simp [hblank])]
    rw [ToolPolicyAdapter.assertWorkspaceAllowed, Act.exec_bind, Act.exec_bind, hnormalize]
    cases hscope : policy.inScope root <;> simp [hscope]
  rw [hexec]
  rcases hscope : policy.inScope root with - | -
  · refine ⟨.error (safetyViolation s!"Workspace outside allowed scope is forbidden: {root}"), s₁,
      done, rfl, hchecks, ?_, fun _ h => ?_⟩
    · exact iff_of_false (fun ⟨_, h⟩ => by cases h) fun h => by cases h.2
    · cases h
  · exact ⟨.ok { context with workspaceRoot := root }, s₁, done, rfl, hchecks,
      iff_of_true ⟨_, rfl⟩ ⟨rfl, rfl⟩, fun _ _ => rfl⟩

/-- A call under a timeout: what `execute` answers under a signal that has not fired is its result,
or is lost. -/
theorem exec_withToolTimeout (m : ToolAction ToolOutput) (timeoutMs : Nat) (toolName : String)
    (s : ToolState σ) (record : List (CallEvent σ)) {result : Except ToolError ToolOutput}
    {s' : ToolState σ} {done : List (CallEvent σ)}
    (hexec : Act.exec (Prog.recording (handle answer)) m ((handle answer .parentAborted s).2,
      ⟨.parentAborted, (handle answer .parentAborted s).1, s⟩ :: record) = (result, s', done)) :
    Act.exec (Prog.recording (handle answer)) (withToolTimeout m timeoutMs toolName) (s, record) =
      if (handle answer .parentAborted s).1 then
        (.error (toolCancelled toolName), (handle answer .parentAborted s).2,
          ⟨.parentAborted, (handle answer .parentAborted s).1, s⟩ :: record)
      else (if (handle answer .timerFired s').1 then .error (toolTimedOut toolName timeoutMs)
          else result, (handle answer .timerFired s').2,
        ⟨.timerFired, (handle answer .timerFired s').1, s'⟩ :: done) := by
  rw [withToolTimeout, Act.exec_bind]
  simp only [system, Act.exec_perform, Prog.recording]
  split_ifs with haborted hfired
  · rfl
  · rw [Act.exec_bind, Act.exec_attempt, hexec]
    simp only [Act.exec_bind, Act.exec_perform, Prog.recording, hfired, if_true, Act.exec_throw]
  · rw [Act.exec_bind, Act.exec_attempt, hexec]
    simp only [Act.exec_bind, Act.exec_perform, Prog.recording, hfired, Bool.false_eq_true, if_false,
      Act.exec_ofExcept]

/-- **A request to write a file** makes a call that writes where its checks accept it. Where they do
not, nothing is written and no result is a success. -/
theorem run_fileWrite {request : UnifiedToolRequest} (h : request.toolName = "file_write")
    (context : ToolExecutionWorkspaceContext) (s : ToolState σ) :
    (WriteAccepted answer host policy request context s →
      ∃ e ∈ (run answer host policy request context s).2.2, e.IsWrite) ∧
    (¬ WriteAccepted answer host policy request context s →
      (∀ e ∈ (run answer host policy request context s).2.2, ¬ e.IsWrite) ∧
        ∀ result, (run answer host policy request context s).1 = .ok result →
          ∃ envelope, result.result = .error envelope) := by
  have hparse : ToolCallName.parse? "file_write" = some .fileWrite := by decide
  unfold run
  rcases hvalid : validateToolInput host request.toolName request.input with error | u
  · -- the input is refused
    have hrefused : ¬ WriteAccepted answer host policy request context s := by
      intro haccepted
      cases hvalid.symm.trans haccepted.1
    have hexec : Act.exec (Prog.recording (handle answer)) (execute host policy request context)
        (s, []) = (.error error, s, []) := by
      simp only [execute, Act.exec_bind, Act.exec_ofExcept, hvalid]
    rw [hexec]
    exact ⟨fun haccepted => absurd haccepted hrefused,
      fun _ => ⟨fun e he => absurd he List.not_mem_nil, fun result hresult => by cases hresult⟩⟩
  obtain ⟨result, s₁, done, hoptions, hchecks, hok, hstate⟩ :=
    exec_requireExecutionOptions answer host policy context s []
  rw [List.append_nil] at hoptions
  cases result with
  | error error =>
    -- the workspace is refused
    have hrefused : ¬ WriteAccepted answer host policy request context s := by
      intro haccepted
      obtain ⟨_, hcontext⟩ := hok.mpr ⟨haccepted.2.1, haccepted.2.2.1⟩
      cases hcontext
    have hexec : Act.exec (Prog.recording (handle answer)) (execute host policy request context)
        (s, []) = (.error error, s₁, done) := by
      simp only [execute, Act.exec_bind, Act.exec_ofExcept, hvalid, hoptions]
    rw [hexec]
    exact ⟨fun haccepted => absurd haccepted hrefused,
      fun _ => ⟨fun e he => CallEvent.not_isWrite_of_checks (hchecks e he),
        fun result hresult => by cases hresult⟩⟩
  | ok context' =>
    obtain ⟨hblank, hscope⟩ := hok.mp ⟨context', rfl⟩
    rw [h] at hvalid
    obtain ⟨hfilePath, content, hcontent⟩ := validateToolInput_fileWrite host hvalid
    obtain rfl := hstate context' rfl
    set s₁ := (normalized answer host context.workspaceRoot s).2 with hs₁
    let asked : CallEvent σ := ⟨.parentAborted, (handle answer .parentAborted s₁).1, s₁⟩
    obtain ⟨result, s₂, written, hwrite, hwrites, hrefuses⟩ := exec_writeFile answer host policy
      (requestedFile request.input) content (handle answer .parentAborted s₁).2 (asked :: done)
    have haccepted : WriteAccepted answer host policy request context s ↔
        (handle answer .parentAborted s₁).1 = false ∧
          PathAccepted answer host policy (requestedFile request.input)
            (handle answer .parentAborted s₁).2 := by
      unfold WriteAccepted
      rw [h, hvalid]
      simp only [hblank, true_and]
      exact and_iff_right hscope
    have hadapter : Act.exec (Prog.recording (handle answer))
        (adapterExecute host policy .fileWrite request context')
        ((handle answer .parentAborted s₁).2, asked :: done) =
        (result.map fun _ => .void, s₂, written ++ asked :: done) := by
      simp only [adapterExecute, Act.exec_bind, Act.exec_ofExcept, hfilePath, hcontent, hwrite]
      cases result <;> rfl
    have htimeout := exec_withToolTimeout answer _ (timeoutOf request.input) request.toolName s₁ done
      hadapter
    have hexec : Act.exec (Prog.recording (handle answer)) (execute host policy request context)
        (s, []) = Act.exec (Prog.recording (handle answer)) (do
          let result ← Act.attempt (withToolTimeout
            (adapterExecute host policy .fileWrite request context') (timeoutOf request.input)
            request.toolName)
          pure (unifiedResult request.toolName .fileWrite result)) (s₁, done) := by
      rw [execute]
      simp only [Act.exec_bind, Act.exec_ofExcept, h, hvalid, hoptions, hparse]
    rw [hexec, Act.exec_bind, Act.exec_attempt, htimeout]
    have hasked : ∀ e ∈ asked :: done, e.op.Checks := List.forall_mem_cons.mpr ⟨trivial, hchecks⟩
    rw [haccepted]
    cases haborted : (handle answer .parentAborted s₁).1 with
    | true =>
      -- the signal has fired
      rw [if_pos rfl]
      refine ⟨fun haccepted => ?_, fun _ => ⟨fun e he => ?_, fun result hresult => ?_⟩⟩
      · cases haccepted.1
      · refine CallEvent.not_isWrite_of_checks (hasked e ?_)
        simp only [asked, haborted]
        exact he
      · cases hresult
        exact ⟨_, rfl⟩
    | false =>
      rw [if_neg Bool.false_ne_true]
      refine ⟨fun haccepted => ?_, fun hrefused => ?_⟩
      · obtain ⟨e, he, hreads⟩ := hwrites haccepted.2
        refine ⟨e, ?_, CallEvent.isWrite_of_not_reads hreads⟩
        exact List.mem_cons_of_mem _ (List.mem_append_left _ he)
      · obtain ⟨⟨error, rfl⟩, hwritten⟩ := hrefuses fun hpath => hrefused ⟨rfl, hpath⟩
        have hall : ∀ e ∈ written ++ asked :: done, e.op.Checks :=
          List.forall_mem_append.mpr ⟨hwritten, hasked⟩
        refine ⟨fun e he => ?_, fun result hresult => ?_⟩
        · rcases List.mem_cons.mp he with rfl | he
          · exact CallEvent.not_isWrite_of_checks trivial
          · exact CallEvent.not_isWrite_of_checks (hall e he)
        · cases hresult
          split_ifs <;> exact ⟨_, rfl⟩

/-- **A harmless request**: its checks do not accept a write, and no process that it starts modifies
a file. -/
structure Harmless (request : UnifiedToolRequest) (context : ToolExecutionWorkspaceContext)
    (s : ToolState σ) : Prop where
  refused : request.toolName = "file_write" → ¬ WriteAccepted answer host policy request context s
  processes : ∀ e ∈ (run answer host policy request context s).2.2, ¬ e.IsWritingProcess

/-- **The writes of a request**: nothing is written exactly where the request is harmless. -/
theorem harmless_iff (request : UnifiedToolRequest) (context : ToolExecutionWorkspaceContext)
    (s : ToolState σ) :
    Harmless answer host policy request context s ↔
      ∀ e ∈ (run answer host policy request context s).2.2, ¬ e.IsWrite := by
  constructor
  · intro hharmless e he hwrite
    by_cases hname : request.toolName = "file_write"
    · exact ((run_fileWrite answer host policy hname context s).2
        (hharmless.refused hname)).1 e he hwrite
    · obtain ⟨done, hexec, -, huses⟩ := Act.exec_recording (handle answer)
        (execute host policy request context) s []
      have hreads : e.op.Reads := by
        refine huses _ (uses_execute hname context) e ?_
        rw [run, hexec, List.append_nil] at he
        exact he
      exact hharmless.processes e he (CallEvent.isWritingProcess_of_reads hreads hwrite)
  · intro hwrites
    refine ⟨fun hname haccepted => ?_, fun e he hprocess => hwrites e he hprocess.isWrite⟩
    obtain ⟨e, he, hwrite⟩ := (run_fileWrite answer host policy hname context s).1 haccepted
    exact hwrites e he hwrite

end FileWrite

end LocalToolSet

end AiOrchestrator
