import AiOrchestrator.Execution.ToolCalls
import AiOrchestrator.Execution.TaskRunner
import AiOrchestrator.Results.Runs

/-!
# Tools

What the tool calls of a role may write. The context of a role says whether the role may write
(`permissionScope`, `canWriteRepo`); the tool set decides by the policy of the workspace.
-/

namespace AiOrchestrator

namespace ToolCalls

/-- **The writes of a role**: whatever its context permits and whatever tools its steps request, an
execution writes nothing through the tool set exactly where each of its tool calls is harmless: no
request to write a file passes the checks of the tool set, and no process that a tool starts modifies
a file. -/
theorem writesNothing_iff {σ : Type} (env : Surroundings σ) (rt : Runtime) {name : AgentRoleName}
    (req : RoleRequest) (context : RoleExecutionContext) (s : ToolState σ) :
    WritesNothing env (roleEvents env rt name req context s) ↔
      ∀ e ∈ roleEvents env rt name req context s, ∀ call context, e.op = .executeTool call context →
        Harmless env call context e.before := by
  have hiff : ∀ call context s, Harmless env call context s ↔
      ∀ w ∈ (env.runTool call context s).2.2, ¬ w.IsWrite := fun call context s =>
    LocalToolSet.harmless_iff env.system env.host env.policy call.unified context.toolContext s
  constructor
  · intro hnothing e he call context hop
    exact (hiff call context e.before).mpr (hnothing.no_write e he call context hop)
  intro hharmless
  refine ⟨fun e he call context hop => (hiff call context e.before).mp
    (hharmless e he call context hop), fun e he role req' context' observations hop => ?_⟩
  intro observation hobservation hname
  -- a step is given what the record backs
  obtain ⟨done, hdone, hallowed⟩ := Prog.wp_events (R := stepRules (Prog.graph env.carryOut)) rfl
    (executeRole_backed rt req context (s, []) trivial)
    (Prog.path_recording (fun _ _ => rfl) _ (s, []))
  rw [List.append_nil] at hdone
  rw [show roleEvents env rt name req context s = done from hdone] at he hharmless
  obtain ⟨later, earlier, rfl⟩ := List.append_of_mem he
  have hbacked := hallowed later e earlier rfl
  rw [hop, List.append_nil] at hbacked
  by_contra hok
  obtain ⟨call, context₁, output, before, hcall, hmem⟩ :=
    hbacked observation hobservation (eq_true_of_ne_false hok)
  have hmem' : (⟨.executeTool call context₁, .ok output, before⟩ : OpEvent (ToolState σ)) ∈
      later ++ e :: earlier := List.mem_append_right later (List.mem_cons_of_mem e hmem)
  -- but the call that it would be of was refused
  obtain ⟨done, hexec, hanswers, -⟩ := Act.exec_recording env.carryOut
    (rt.executeRole (rt.registeredRole name req context) req context) s []
  have hevents : done = later ++ e :: earlier := by
    rw [← hdone, ← List.append_nil done]
    exact (congrArg (fun r => r.2.2) hexec).symm
  rw [← hevents] at hmem' hharmless
  refine carryOut_refused env (hharmless _ hmem' call context₁ rfl) (hcall.trans hname) output ?_
  exact (hanswers _ hmem').symm

/-- A platform with paths that are normalized. -/
def sampleHost : ToolHost where
  resolve := id
  resolveIn directory path := directory ++ "/" ++ path
  dirname path := String.ofList ((path.toList.reverse.dropWhile (· ≠ '/')).drop 1).reverse
  relative source target :=
    if Text.startsWith target (source ++ "/") then
      String.ofList (target.toList.drop (source.length + 1))
    else ""
  join directory path := directory ++ "/" ++ path
  isAbsolute path := Text.startsWith path "/"
  issue _ _ := "Invalid input"

/-- The policy of a workspace in the directory `/w`. -/
def samplePolicy : ToolPolicyAdapter where
  normalizedScopes := ["/w"]
  normalizedProtectedScopes := []
  writeMode := .workspaceWrite
  maxModifiedFiles := 200
  allowedCommands := ["node"]

/-- A system on which all calls succeed, with one directory. -/
def sampleSystem : (o : SystemCall) → World → o.Ans × World
  | .existsSync path, w => (path = "/w", w)
  | .realpathSync path, w => (some path, w)
  | .parentAborted, w | .timerFired, w => (false, w)
  | .aborted, w => (none, w)
  | .addModifiedFile _, w => (0, w)
  | .readFile _, w => (.ok "", w)
  | .mkdir _, w | .writeFile _ _, w => (.ok (), w)
  | .readdir _, w | .searchWithNode _ _, w => (.ok [], w)
  | .execFile _ _ _, w => ({ failure := none, stdout := "", stderr := "", modified := [] }, w)

/-- A request to write a file of the workspace. -/
def writeCall : ToolCallRequest where
  toolName := "file_write"
  input := (Dict.empty.set "filePath" (.str "/w/review.md")).set "content" (.str "Approved")
  rationale := "Keep the review"

/-- A role whose first step requests to write a file. -/
def sampleOperation : (o : Op) → World → o.Ans × World
  | .executeRoleStep _ _ _ [], w => (.ok (.toolRequest writeCall), w)
  | o, w => Runtime.sampleHandle "" o w

def sampleSurroundings : Surroundings World where
  operation := sampleOperation
  system := sampleSystem
  late _ := none
  host := sampleHost
  policy := samplePolicy
  value
    | .void => .undefined
    | .text value => .text value
    | .texts values => .json (jsonTexts values)
    | .flag value => .json (.bool value)
    | .check _ diagnostics => .json (jsonTexts diagnostics)
    | .shell result => .text result.stdout

/-- An orchestrator whose roles work step by step. -/
def steppingRuntime : Runtime := { Runtime.sampleRuntime with hasSteps := fun _ => true }

def reviewRequest : RoleRequest where
  role := .reviewer
  objective := "Review T-1"
  input := .judge ProjectState.oneTaskHandle.task .null
  acceptanceCriteria := []

/-- The context that a run makes for its reviewer. -/
def reviewContext : RoleExecutionContext :=
  Runtime.makeContext .reviewer "run" ProjectState.oneTask "/w" (some "T-1") true

def reviewEvents : List (OpEvent (ToolState World)) :=
  roleEvents sampleSurroundings steppingRuntime .reviewer reviewRequest reviewContext
    (Runtime.sampleWorld ProjectState.oneTask, [])

/-- **A reviewer writes a file**: its context is read-only and does not let it write, and a call of
the tool set writes the file that it has asked for. -/
theorem reviewer_writes :
    reviewContext.permissionScope = .readOnly ∧ reviewContext.canWriteRepo = false ∧
      (∃ e ∈ reviewEvents, e.op = .executeTool writeCall reviewContext ∧
        ∃ w ∈ (sampleSurroundings.runTool writeCall reviewContext e.before).2.2,
          w.op = .writeFile "/w/review.md" "Approved") ∧
      ¬ WritesNothing sampleSurroundings reviewEvents := by
  obtain ⟨e, he, hop, w, hw, hwrite, hisWrite⟩ : ∃ e, reviewEvents[34]? = some e ∧
      e.op = .executeTool writeCall reviewContext ∧
      ∃ w, (sampleSurroundings.runTool writeCall reviewContext e.before).2.2[1]? = some w ∧
        w.op = .writeFile "/w/review.md" "Approved" ∧ w.IsWrite :=
    ⟨_, rfl, rfl, _, rfl, rfl, trivial⟩
  have he' := List.mem_of_getElem? he
  have hw' := List.mem_of_getElem? hw
  refine ⟨rfl, rfl, ⟨e, he', hop, w, hw', hwrite⟩, fun hnothing => ?_⟩
  exact hnothing.no_write e he' writeCall reviewContext hop w hw' hisWrite

end ToolCalls

end AiOrchestrator
