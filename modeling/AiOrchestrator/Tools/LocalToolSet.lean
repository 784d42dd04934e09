import AiOrchestrator.Execution.Roles
import AiOrchestrator.Lib.Prog

/-!
# The local tool set

`createLocalToolSet` (`packages/tools/src/index.ts`) with its policy and its adapters, as programs
over the calls that they make to the system (`SystemCall`). The input of a request is checked by the
schema of its tool, the workspace must lie in an allowed path, and the adapter of the tool then
makes its calls; what it throws becomes the error of the result.

The functions of `node:path` and the messages of the schema library are a `ToolHost`. The list of
executed tools (`evidence`) is left out, as nothing reads it.
-/

namespace AiOrchestrator

/-! ### Results and errors -/

inductive ToolErrorCategory
  | validation | timeout | cancelled | policy | execution | unsupported
deriving DecidableEq, Repr

structure ToolErrorEnvelope where
  category : ToolErrorCategory
  retriable : Bool
  code : String
  message : String

/-- What a tool throws: a `ToolExecutionContractError`, an error named `AbortError` or another
error. -/
inductive ToolError
  | contract (envelope : ToolErrorEnvelope)
  | abort (message : String)
  | other (message : String)

def ToolError.message : ToolError → String
  | .contract envelope => envelope.message
  | .abort message | .other message => message

/-- `normalizeToolError`. -/
def normalizeToolError (error : ToolError) (fallbackCode : String) : ToolErrorEnvelope :=
  match error with
  | .contract envelope => envelope
  | .abort message => { category := .cancelled, retriable := false, code := "TOOL_CANCELLED", message }
  | .other message => { category := .execution, retriable := true, code := fallbackCode, message }

structure ShellExecResult where
  ok : Bool
  command : String
  args : List String
  stdout : String
  stderr : String
  exitCode : Int

/-- The output of a tool. -/
inductive ToolOutput
  | void
  | text (value : String)
  | texts (values : List String)
  | flag (value : Bool)
  | check (ok : Bool) (diagnostics : List String)
  | shell (result : ShellExecResult)

inductive SideEffectRisk
  | none | low | high
deriving DecidableEq, Repr

structure ToolDeterminismMetadata where
  deterministic : Bool
  sideEffectRisk : SideEffectRisk

structure UnifiedToolResult where
  toolName : String
  /-- The output, or the error where `ok` is false. -/
  result : Except ToolErrorEnvelope ToolOutput
  determinism : ToolDeterminismMetadata

/-- `ToolCallName`. -/
inductive ToolCallName
  | fileRead | fileWrite | fileList | fileExists
  | gitStatus | gitDiff | gitCurrentBranch
  | typescriptCheck | typescriptDiagnostics
  | shellExec | testingRun | diffWorkspace | searchRepo
deriving DecidableEq, Repr

namespace ToolCallName

def text : ToolCallName → String
  | fileRead => "file_read"
  | fileWrite => "file_write"
  | fileList => "file_list"
  | fileExists => "file_exists"
  | gitStatus => "git_status"
  | gitDiff => "git_diff"
  | gitCurrentBranch => "git_current_branch"
  | typescriptCheck => "typescript_check"
  | typescriptDiagnostics => "typescript_diagnostics"
  | shellExec => "shell_exec"
  | testingRun => "testing_run"
  | diffWorkspace => "diff_workspace"
  | searchRepo => "search_repo"

def all : List ToolCallName :=
  [fileRead, fileWrite, fileList, fileExists, gitStatus, gitDiff, gitCurrentBranch, typescriptCheck,
    typescriptDiagnostics, shellExec, testingRun, diffWorkspace, searchRepo]

/-- The tool with a name. -/
def parse? (toolName : String) : Option ToolCallName := all.find? fun name => name.text = toolName

/-- `TOOL_METADATA`. -/
def metadata : ToolCallName → ToolDeterminismMetadata
  | fileRead | fileList | fileExists | searchRepo => ⟨true, .none⟩
  | fileWrite | shellExec => ⟨false, .high⟩
  | testingRun => ⟨false, .low⟩
  | gitStatus | gitDiff | gitCurrentBranch | typescriptCheck | typescriptDiagnostics
  | diffWorkspace => ⟨false, .none⟩

end ToolCallName

/-! ### Input schemas -/

/-- The schema of a property. -/
inductive FieldSchema
  | nonEmptyString | finiteNumber | boolean | strings
deriving DecidableEq, Repr

/-- The values that a schema refuses, with their paths below the property. -/
def FieldSchema.refused : FieldSchema → Json Nat → List (String × Json Nat)
  | nonEmptyString, .str s => if Text.isBlank s then [("", .str s)] else []
  | finiteNumber, .num _ => []
  | boolean, .bool _ => []
  | strings, .arr items =>
    items.zipIdx.flatMap fun (item, index) =>
      match item with
      | .str _ => []
      | item => [(s!".{index}", item)]
  | _, value => [("", value)]

structure Field where
  name : String
  schema : FieldSchema
  optional : Bool := false

/-- The functions of `node:path`, where `resolve` is from the working directory and `resolveIn`
from a directory; and the message of the schema library for a value that a schema refuses, or that
is missing. -/
structure ToolHost where
  resolve : String → String
  resolveIn : String → String → String
  dirname : String → String
  relative : String → String → String
  join : String → String → String
  isAbsolute : String → Bool
  issue : FieldSchema → Option (Json Nat) → String

/-- `inputSchemas`. -/
def ToolCallName.inputSchema (name : ToolCallName) : List Field :=
  let timeoutMs : Field := { name := "timeoutMs", schema := .finiteNumber, optional := true }
  let staged : Field := { name := "staged", schema := .boolean, optional := true }
  let command : List Field :=
    [{ name := "command", schema := .nonEmptyString },
      { name := "args", schema := .strings, optional := true }]
  match name with
  | fileRead | fileExists => [{ name := "filePath", schema := .nonEmptyString }, timeoutMs]
  | fileWrite =>
    [{ name := "filePath", schema := .nonEmptyString },
      { name := "content", schema := .nonEmptyString }, timeoutMs]
  | fileList => [{ name := "dirPath", schema := .nonEmptyString }, timeoutMs]
  | gitStatus | gitCurrentBranch | typescriptCheck | typescriptDiagnostics => [timeoutMs]
  | gitDiff | diffWorkspace => [staged, timeoutMs]
  | shellExec | testingRun => command ++ [timeoutMs]
  | searchRepo =>
    [{ name := "pattern", schema := .nonEmptyString },
      { name := "cwd", schema := .nonEmptyString, optional := true }, timeoutMs]

/-- The properties that every object literal inherits, on which `inputSchemas[toolName]` is no
schema. -/
def objectPrototypeKeys : List String :=
  ["constructor", "hasOwnProperty", "isPrototypeOf", "propertyIsEnumerable", "toLocaleString",
    "toString", "valueOf", "__proto__", "__defineGetter__", "__defineSetter__",
    "__lookupGetter__", "__lookupSetter__"]

namespace LocalToolSet

section Input

variable (host : ToolHost)

/-- The issues of a property. -/
def fieldIssues (input : Record (Json Nat)) (field : Field) : List String :=
  match input.get? field.name with
  | none => if field.optional then [] else [s!"{field.name}: {host.issue field.schema none}"]
  | some value =>
    (field.schema.refused value).map fun (path, value) =>
      s!"{field.name}{path}: {host.issue field.schema (some value)}"

/-- `validateToolInput`. -/
def validateToolInput (toolName : String) (input : Record (Json Nat)) : Except ToolError Unit :=
  match ToolCallName.parse? toolName with
  | none =>
    if objectPrototypeKeys.contains toolName then
      .error (.other "schema.safeParse is not a function")
    else .ok ()
  | some name =>
    let issues := name.inputSchema.flatMap (fieldIssues host input)
    let text := String.intercalate "; " issues
    if issues ≠ [] then
      .error (.contract
        { category := .validation, retriable := false, code := "TOOL_INPUT_SCHEMA_INVALID"
          message := s!"Invalid input for {toolName}: {text}" })
    else .ok ()

/-- `asString`. -/
def asString (value : Option (Json Nat)) (fieldName : String) : Except ToolError String :=
  match value with
  | some (.str s) =>
    if Text.isBlank s then .error (.other s!"Field {fieldName} must be a non-empty string")
    else .ok s
  | _ => .error (.other s!"Field {fieldName} must be a non-empty string")

/-- The items of an array that are texts. -/
def stringItems (items : List (Json Nat)) : List String :=
  items.filterMap fun item => match item with | .str s => some s | _ => none

/-- `asStringArray`. -/
def asStringArray (value : Option (Json Nat)) (field : String) : Except ToolError (List String) :=
  match value with
  | none => .ok []
  | some (.arr items) =>
    if (stringItems items).length = items.length then .ok (stringItems items)
    else .error (.other s!"Field {field} must be a string[]")
  | some _ => .error (.other s!"Field {field} must be a string[]")

/-- `asBoolean`. -/
def asBoolean (value : Option (Json Nat)) (fallback : Bool) : Except ToolError Bool :=
  match value with
  | none => .ok fallback
  | some (.bool b) => .ok b
  | some _ => .error (.other "staged must be a boolean")

end Input

end LocalToolSet

/-! ### Calls to the system -/

/-- Why `execFile` rejects: the error, its text, and the `stdout`, `stderr` and `code` it has. -/
structure ProcessFailure where
  error : ToolError
  text : String
  stdout : Option String
  stderr : Option String
  code : Option (Int ⊕ String)

/-- What came of a process. `modified` are the files that it wrote. -/
structure ProcessOutcome where
  failure : Option ProcessFailure
  stdout : String
  stderr : String
  modified : List String

/-- **Calls** of the tool set. -/
inductive SystemCall
  | existsSync (path : String)
  | realpathSync (path : String)
  /-- `parentSignal.aborted`. -/
  | parentAborted
  /-- Whether the timer of a call has fired before the adapter was done. -/
  | timerFired
  /-- `signal.aborted` of the signal an adapter is given, with the error it throws. -/
  | aborted
  /-- `modifiedFiles.add(path)`, and then `modifiedFiles.size`. -/
  | addModifiedFile (path : String)
  | readFile (path : String)
  | mkdir (path : String)
  | writeFile (path content : String)
  | readdir (path : String)
  | execFile (command : String) (args : List String) (cwd : String)
  /-- `searchWithNode`: the lines of the files below a directory that match. -/
  | searchWithNode (pattern cwd : String)

/-- What a call answers; `realpathSync` answers `none` where it throws. -/
@[reducible] def SystemCall.Ans : SystemCall → Type
  | existsSync _ | parentAborted | timerFired => Bool
  | realpathSync _ => Option String
  | aborted => Option ToolError
  | addModifiedFile _ => Nat
  | readFile _ => Except ToolError String
  | mkdir _ | writeFile _ _ => Except ToolError Unit
  | readdir _ | searchWithNode _ _ => Except ToolError (List String)
  | execFile _ _ _ => ProcessOutcome

abbrev ToolAction (α : Type) := Act ToolError SystemCall SystemCall.Ans α

/-- Programs of calls that throw nothing. -/
abbrev SystemAction (α : Type) := Prog SystemCall SystemCall.Ans α

def system (o : SystemCall) : ToolAction o.Ans := Act.perform o

def SystemCall.perform (o : SystemCall) : SystemAction o.Ans := Prog.perform o

/-- `SafetyViolationError`. -/
def safetyViolation (message : String) : ToolError := .other message

/-! ### Policy -/

inductive SafeWriteMode
  | readOnly | proposeOnly | workspaceWrite | protectedWrite
deriving DecidableEq, Repr

def SafeWriteMode.text : SafeWriteMode → String
  | .readOnly => "read-only"
  | .proposeOnly => "propose-only"
  | .workspaceWrite => "workspace-write"
  | .protectedWrite => "protected-write"

structure ToolPolicyConfig where
  allowedWritePaths : List String
  allowedShellCommands : List String
  writeMode : Option SafeWriteMode
  protectedWritePaths : Option (List String)
  maxModifiedFiles : Option Nat

/-- `DEFAULT_PROTECTED_WRITE_PATHS`. -/
def defaultProtectedWritePaths : List String :=
  ["package.json", "pnpm-lock.yaml", "package-lock.json", ".github", ".env"]

/-- `ToolPolicyAdapter`, less the set of modified files, which its calls change. -/
structure ToolPolicyAdapter where
  normalizedScopes : List String
  normalizedProtectedScopes : List String
  writeMode : SafeWriteMode
  maxModifiedFiles : Nat
  allowedCommands : List String

namespace LocalToolSet

/-- `normalizePath`. -/
def normalizePath (host : ToolHost) (targetPath : String) : SystemAction String := do
  let resolved := host.resolve targetPath
  let found : Bool ← SystemCall.perform (.existsSync resolved)
  let existingPath := if found then resolved else host.dirname resolved
  let real : Option String ← SystemCall.perform (.realpathSync existingPath)
  match real with
  | some realBase =>
    let relativeSuffix := host.relative existingPath resolved
    pure (if relativeSuffix ≠ "" then host.join realBase relativeSuffix else realBase)
  | none => pure resolved

/-- The normalized paths, one after the other. -/
def normalizePaths (host : ToolHost) : List String → SystemAction (List String)
  | [] => pure []
  | path :: paths => do
    let first ← normalizePath host path
    let rest ← normalizePaths host paths
    pure (first :: rest)

/-- `createToolPolicyAdapter`, of the configuration with the defaults of
`resolveToolPolicyConfig`. -/
def createToolPolicyAdapter (host : ToolHost) (config : ToolPolicyConfig) :
    SystemAction ToolPolicyAdapter := do
  let normalizedScopes ← normalizePaths host config.allowedWritePaths
  let normalizedProtectedScopes ← normalizePaths host
    (config.protectedWritePaths.getD (defaultProtectedWritePaths.map host.resolve))
  pure
    { normalizedScopes, normalizedProtectedScopes
      writeMode := config.writeMode.getD .workspaceWrite
      maxModifiedFiles := config.maxModifiedFiles.getD 200
      allowedCommands := (config.allowedShellCommands.map Text.trim).filter (· ≠ "") }

/-- `isWithinPathScope`. -/
def isWithinPathScope (candidatePath basePath : String) : Bool :=
  candidatePath = basePath || Text.startsWith candidatePath (basePath ++ "/")

end LocalToolSet

namespace ToolPolicyAdapter

open LocalToolSet

variable (policy : ToolPolicyAdapter)

/-- A path within the allowed paths. -/
def inScope (path : String) : Bool := policy.normalizedScopes.any (isWithinPathScope path)

/-- `isProtectedPath`. -/
def isProtectedPath (path : String) : Bool :=
  policy.normalizedProtectedScopes.any (isWithinPathScope path)

/-- `assertWorkspaceAllowed`. -/
def assertWorkspaceAllowed (host : ToolHost) (workspaceRoot : String) : ToolAction String := do
  let resolved ← ExceptT.lift (normalizePath host workspaceRoot)
  if !policy.inScope resolved then
    throw (safetyViolation s!"Workspace outside allowed scope is forbidden: {resolved}")
  else pure resolved

/-- The checks of `assertWriteAllowed` on the path alone. -/
def checkWritePath (resolved : String) : Except ToolError Unit :=
  if policy.writeMode = .readOnly ∨ policy.writeMode = .proposeOnly then
    .error (safetyViolation s!"Write is forbidden in {policy.writeMode.text} mode: {resolved}")
  else if !policy.inScope resolved then
    .error (safetyViolation s!"Write outside allowed scope is forbidden: {resolved}")
  else if policy.writeMode ≠ .protectedWrite ∧ policy.isProtectedPath resolved then
    .error (safetyViolation
      s!"Write to protected path requires protected-write mode: {resolved}")
  else .ok ()

/-- The check of `assertWriteAllowed` on the number of modified files. -/
def checkModifiedFiles (size : Nat) : Except ToolError Unit :=
  if policy.maxModifiedFiles < size then
    .error (safetyViolation
      s!"Maximum modified files threshold exceeded: {size}/{policy.maxModifiedFiles}")
  else .ok ()

/-- `assertWriteAllowed`. -/
def assertWriteAllowed (host : ToolHost) (targetPath : String) : ToolAction String := do
  let resolved ← ExceptT.lift (normalizePath host targetPath)
  Act.ofExcept (policy.checkWritePath resolved)
  let size : Nat ← system (.addModifiedFile resolved)
  Act.ofExcept (policy.checkModifiedFiles size)
  pure resolved

/-- `assertGitArgsAllowed`: the joined arguments are among these. -/
def allowedGitSignatures : List String :=
  ["status", "status\x00--short", "status\x00--porcelain", "diff", "diff\x00--staged",
    "branch\x00--show-current"]

/-- `assertCommandArgsAllowed`. -/
def checkCommandArgs (command : String) (args : List String) : Except ToolError Unit :=
  let refusal : ToolError := safetyViolation
    (s!"Shell command arguments are not allowed for {command}: " ++ String.intercalate " " args)
  if command = "git" then
    if allowedGitSignatures.contains (String.intercalate "\x00" args) then .ok ()
    else .error refusal
  else if command = "npm" ∨ command = "pnpm" then
    match args with
    | ["run", stage] =>
      if ["build", "lint", "typecheck", "test"].contains stage then .ok () else .error refusal
    | _ => .error refusal
  else .ok ()

/-- `assertCommandAllowed`. -/
def assertCommandAllowed (command : String) (args : List String) : Except ToolError String := do
  if !policy.allowedCommands.contains command then
    throw (safetyViolation s!"Shell command is not allowlisted: {command}")
  checkCommandArgs command args
  pure command

end ToolPolicyAdapter

/-! ### Adapters -/

structure ToolExecutionWorkspaceContext where
  workspaceRoot : String
  policy : Option String
  permissionScope : Option String

structure UnifiedToolRequest where
  toolName : String
  input : Record (Json Nat)

namespace LocalToolSet

/-- `assertNotAborted`. -/
def assertNotAborted : ToolAction Unit := do
  let reason : Option ToolError ← system .aborted
  match reason with
  | some error => throw error
  | none => pure ()

section Adapters

variable (host : ToolHost) (policy : ToolPolicyAdapter)

/-- `writeFile` of the file-system tool. -/
def writeFile (filePath content : String) : ToolAction Unit := do
  assertNotAborted
  let guardedPath ← policy.assertWriteAllowed host filePath
  let made : Except ToolError Unit ← system (.mkdir (host.dirname guardedPath))
  Act.ofExcept made
  let written : Except ToolError Unit ← system (.writeFile guardedPath content)
  Act.ofExcept written

/-- `listFiles` of the file-system tool. -/
def listFiles (dirPath : String) : ToolAction (List String) := do
  assertNotAborted
  let read : Except ToolError (List String) ← system (.readdir (host.resolve dirPath))
  let entries ← Act.ofExcept read
  assertNotAborted
  pure (Text.sort entries)

/-- A process whose failure is thrown. -/
def execFileAsync (command : String) (args : List String) (cwd : String) : ToolAction String := do
  let outcome : ProcessOutcome ← system (.execFile command args cwd)
  match outcome.failure with
  | some failure => throw failure.error
  | none => pure outcome.stdout

/-- `diff` of the git tool. -/
def gitDiff (cwd : String) (staged : Bool) : ToolAction String :=
  execFileAsync "git" (if staged then ["diff", "--staged"] else ["diff"]) cwd

/-- `text.split('\n').filter(Boolean)`. -/
def nonEmptyLines (text : String) : List String :=
  (Text.splitOnChar '\n' text).filter (· ≠ "")

/-- `typeScriptCheck`. -/
def typeScriptCheck (cwd : String) : ToolAction (Bool × List String) := do
  let outcome : ProcessOutcome ← system (.execFile "npm" ["run", "typecheck"] cwd)
  match outcome.failure with
  | some failure => pure (false, nonEmptyLines (failure.stderr.getD failure.text))
  | none => pure (true, [])

/-- `execute` of the shell adapter. -/
def shellExec (input : Record (Json Nat)) (workspaceRoot : String) : ToolAction ShellExecResult := do
  match input.get? "command" with
  | some (.str command) =>
    if command = "" then throw (.other "Field command must be a non-empty string")
    else do
      let args ← Act.ofExcept (asStringArray (input.get? "args") "args")
      let allowlistedCommand ← Act.ofExcept (policy.assertCommandAllowed command args)
      let cwd ← policy.assertWorkspaceAllowed host workspaceRoot
      let outcome : ProcessOutcome ← system (.execFile allowlistedCommand args cwd)
      match outcome.failure with
      | none =>
        pure
          { ok := true, command := allowlistedCommand, args, stdout := outcome.stdout
            stderr := outcome.stderr, exitCode := 0 }
      | some failure =>
        pure
          { ok := false, command := allowlistedCommand, args
            stdout := failure.stdout.getD "", stderr := failure.stderr.getD failure.text
            exitCode := match failure.code with | some (.inl code) => code | _ => -1 }
  | _ => throw (.other "Field command must be a non-empty string")

/-- `execute` of the testing adapter. -/
def testingRun (input : Record (Json Nat)) (workspaceRoot : String) : ToolAction ShellExecResult := do
  match input.get? "command" with
  | some (.str command) =>
    if command = "" then throw (.other "Field command must be a non-empty string")
    else do
      let args := match input.get? "args" with | some (.arr items) => stringItems items | _ => []
      shellExec host policy
        ((Dict.empty.set "command" (.str command)).set "args" (jsonTexts args)) workspaceRoot
  | _ => throw (.other "Field command must be a non-empty string")

/-- `resolveSearchRoot`. -/
def resolveSearchRoot (input : Option (Json Nat)) (workspaceRoot : String) : ToolAction String :=
  match input with
  | some (.str cwd) =>
    if Text.isBlank cwd then pure workspaceRoot
    else
      policy.assertWorkspaceAllowed host
        (if host.isAbsolute cwd then host.resolve cwd else host.resolveIn workspaceRoot cwd)
  | _ => pure workspaceRoot

/-- `execute` of the search adapter. -/
def searchRepo (input : Record (Json Nat)) (workspaceRoot : String) : ToolAction (List String) := do
  match input.get? "pattern" with
  | some (.str pattern) =>
    if pattern = "" then throw (.other "Field pattern must be a non-empty string")
    else do
      let workspaceRoot ← policy.assertWorkspaceAllowed host workspaceRoot
      let cwd ← resolveSearchRoot host policy (input.get? "cwd") workspaceRoot
      let args := ["--line-number", pattern, cwd]
      let command ← Act.ofExcept (policy.assertCommandAllowed "rg" args)
      let outcome : ProcessOutcome ← system (.execFile command args workspaceRoot)
      match outcome.failure with
      | none => pure (nonEmptyLines outcome.stdout)
      | some failure =>
        match failure.code with
        | some (.inl 1) => pure (nonEmptyLines (failure.stdout.getD ""))
        | some (.inr "ENOENT") => do
          let found : Except ToolError (List String) ← system (.searchWithNode pattern cwd)
          Act.ofExcept found
        | _ => throw failure.error
  | _ => throw (.other "Field pattern must be a non-empty string")

/-- `execute` of the adapter of a tool. -/
def adapterExecute (name : ToolCallName) (request : UnifiedToolRequest)
    (context : ToolExecutionWorkspaceContext) : ToolAction ToolOutput :=
  let input := request.input
  let cwd := context.workspaceRoot
  match name with
  | .fileRead => do
    let filePath ← Act.ofExcept (asString (input.get? "filePath") "filePath")
    let read : Except ToolError String ← system (.readFile (host.resolve filePath))
    let content ← Act.ofExcept read
    pure (.text content)
  | .fileWrite => do
    let filePath ← Act.ofExcept (asString (input.get? "filePath") "filePath")
    let content ← Act.ofExcept (asString (input.get? "content") "content")
    writeFile host policy filePath content
    pure .void
  | .fileList => do
    let dirPath ← Act.ofExcept (asString (input.get? "dirPath") "dirPath")
    let entries ← listFiles host dirPath
    pure (.texts entries)
  | .fileExists => do
    let filePath ← Act.ofExcept (asString (input.get? "filePath") "filePath")
    assertNotAborted
    let found : Bool ← system (.existsSync (host.resolve filePath))
    pure (.flag found)
  | .gitStatus => do
    let stdout ← execFileAsync "git" ["status", "--short"] cwd
    pure (.text (Text.trim stdout))
  | .gitDiff => do
    let staged ← Act.ofExcept (asBoolean (input.get? "staged") false)
    let stdout ← gitDiff cwd staged
    pure (.text stdout)
  | .gitCurrentBranch => do
    let stdout ← execFileAsync "git" ["branch", "--show-current"] cwd
    pure (.text (Text.trim stdout))
  | .typescriptCheck => do
    let (ok, diagnostics) ← typeScriptCheck cwd
    pure (.check ok diagnostics)
  | .typescriptDiagnostics => do
    let (_, diagnostics) ← typeScriptCheck cwd
    pure (.texts diagnostics)
  | .shellExec => do
    let result ← shellExec host policy input cwd
    pure (.shell result)
  | .testingRun => do
    let result ← testingRun host policy input cwd
    pure (.shell result)
  | .diffWorkspace => do
    let stdout ← gitDiff cwd (match input.get? "staged" with | some (.bool b) => b | _ => false)
    pure (.text stdout)
  | .searchRepo => do
    let lines ← searchRepo host policy input cwd
    pure (.texts lines)

/-! ### Execution of a request -/

/-- The error of a request without a workspace. -/
def workspaceRequired : ToolError :=
  .contract
    { category := .policy, retriable := false, code := "TOOL_WORKSPACE_REQUIRED"
      message := "Tool execution requires an explicit workspaceRoot" }

/-- `requireExecutionOptions`. -/
def requireExecutionOptions (context : ToolExecutionWorkspaceContext) :
    ToolAction ToolExecutionWorkspaceContext := do
  if Text.isBlank context.workspaceRoot then throw workspaceRequired
  else do
    let workspaceRoot ← policy.assertWorkspaceAllowed host context.workspaceRoot
    pure { context with workspaceRoot }

/-- The error of a request under a signal that has fired. -/
def toolCancelled (toolName : String) : ToolError :=
  .contract
    { category := .cancelled, retriable := false, code := "TOOL_CANCELLED"
      message := s!"Tool {toolName} cancelled before execution" }

/-- The error of a request whose timer fires first. -/
def toolTimedOut (toolName : String) (timeoutMs : Nat) : ToolError :=
  .contract
    { category := .timeout, retriable := true, code := "TOOL_TIMEOUT"
      message := s!"Tool {toolName} timed out after {timeoutMs}ms" }

/-- `withToolTimeout`: a call under a signal that has fired is not made, and of a call whose timer
fires first the result is lost. -/
def withToolTimeout (execute : ToolAction ToolOutput) (timeoutMs : Nat) (toolName : String) :
    ToolAction ToolOutput := do
  let aborted : Bool ← system .parentAborted
  if aborted then throw (toolCancelled toolName)
  else do
    let result ← Act.attempt execute
    let fired : Bool ← system .timerFired
    if fired then throw (toolTimedOut toolName timeoutMs) else Act.ofExcept result

/-- The timeout of a request. -/
def timeoutOf (input : Record (Json Nat)) : Nat :=
  match input.get? "timeoutMs" with
  | some (.num n) => max 1 n
  | _ => 10000

/-- The result of a request whose adapter was called. -/
def unifiedResult (toolName : String) (name : ToolCallName) (result : Except ToolError ToolOutput) :
    UnifiedToolResult where
  toolName := toolName
  result :=
    match result with
    | .ok output => .ok output
    | .error error => .error (normalizeToolError error "TOOL_EXECUTION_FAILED")
  determinism := name.metadata

/-- **`execute`** of the tool set. -/
def execute (request : UnifiedToolRequest) (context : ToolExecutionWorkspaceContext) :
    ToolAction UnifiedToolResult := do
  Act.ofExcept (validateToolInput host request.toolName request.input)
  let context ← requireExecutionOptions host policy context
  match ToolCallName.parse? request.toolName with
  | none =>
    throw (.contract
      { category := .unsupported, retriable := false, code := "TOOL_UNSUPPORTED"
        message := s!"Unsupported tool request: {request.toolName}" })
  | some name => do
    let result ← Act.attempt
      (withToolTimeout (adapterExecute host policy name request context)
        (timeoutOf request.input) request.toolName)
    pure (unifiedResult request.toolName name result)

end Adapters

end LocalToolSet

end AiOrchestrator
