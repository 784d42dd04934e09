import AiOrchestrator.Core.ProjectState
import AiOrchestrator.Lib.Json

/-!
# Errors and the platform

The error classes a caller can tell apart, and the functions of the platform that
the program calls: hashing, locale comparison, the text of a JSON value and the
floating-point cost of tokens.
-/

namespace AiOrchestrator

/-- The classes of thrown values. -/
inductive ErrorClass
  | error | typeError | rangeError
  | stateStore | stateIntegrity | workflowPolicy | schemaValidation | workspaceManager
  | stepTimeout
  /-- `StepCancelledError`; whether its propagation state is `cancellation_requested`. -/
  | stepCancelled (requested : Bool)
deriving DecidableEq, Repr

/-- A thrown value: its class, its message and the `code` of its details. -/
structure RuntimeError where
  cls : ErrorClass
  message : String
  code : Option String := none
deriving DecidableEq, Repr

namespace RuntimeError

def plain (message : String) : RuntimeError := { cls := .error, message }

def stateStore (message : String) (code : Option String := none) : RuntimeError :=
  { cls := .stateStore, message, code }

def stateIntegrity (message : String) (code : Option String := none) : RuntimeError :=
  { cls := .stateIntegrity, message, code }

def workflowPolicy (message : String) (code : Option String := none) : RuntimeError :=
  { cls := .workflowPolicy, message, code }

end RuntimeError

/-- `STATE_REVISION_CONFLICT`. -/
def stateRevisionConflictCode : String := "STATE_REVISION_CONFLICT"

/-- `stateRevisionConflict`. -/
def stateRevisionConflict : RuntimeError :=
  .stateStore "State revision conflict" (some stateRevisionConflictCode)

/-- **Platform functions** the program calls: SHA-256 in hexadecimal,
`String.prototype.localeCompare`, `JSON.stringify`, and `Math.ceil((tokens / 1000) * cost)`
in floating-point numbers. -/
structure Host where
  sha256Hex : String → String
  localeCompare : String → String → Ordering
  stringify : Json Nat → String
  tokenCost : Nat → Nat → Nat

end AiOrchestrator
