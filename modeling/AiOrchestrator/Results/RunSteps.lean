import AiOrchestrator.Results.Stores
import AiOrchestrator.State.PostgresRunSteps

/-!
# Run steps

What the stores guarantee about the run steps that are recorded in them.
-/

namespace AiOrchestrator

open InMemoryStateStore PostgresStateStore.RunSteps PromiseQueue

/-! ### Paths of the transition table -/

/-- A step of the sample run with a status. -/
def stepWith (id : String) (status : RunStepStatus) : RunStepLogEntry :=
  { sampleRunStep with id, status }

/-- A cancellation: requested, then done. -/
def cancellation : List RunStepLogEntry :=
  [stepWith "S-1" .cancellationRequested, stepWith "S-2" .cancelled]

/-- The moves of a call that is executed. -/
def executed {ι : Type} (i : ι) (n : Nat) : List (Move ι (PostgresStateStore.Fate × Nat) Empty) :=
  List.replicate n (.client i (.executed, 0))

theorem paths_nil : Paths [] := fun _ => List.IsChain.nil

/-- A cancellation with times that go on: requested, done, and a compensation that comes late. -/
def timedSteps : Fin 3 → RunStepLogEntry
  | 0 => { stepWith "S-1" .cancellationRequested with createdAt := "2024-01-01T00:00:01.000Z" }
  | 1 => { stepWith "S-2" .cancelled with createdAt := "2024-01-01T00:00:02.000Z" }
  | 2 => { stepWith "S-3" .compensationPending with createdAt := "2024-01-01T00:00:03.000Z" }

/-- A host that tells the times of these steps apart. -/
def clockHost : Host := { sampleHost with localeCompare := fun a b => compare a b }

/-- Time stamps of one form, read as numbers. -/
def sampleInstant (createdAt : String) : Int :=
  createdAt.toList.foldl (fun value c => value * 256 + c.toNat) 0

/-- A compensation after the cancellation. -/
def lateCompensation : List RunStepLogEntry :=
  cancellation ++ [stepWith "S-3" .compensationPending]

/-- Two calls for one key with final statuses. -/
def finals : Fin 2 → RunStepLogEntry
  | 0 => stepWith "S-1" .succeeded
  | 1 => stepWith "S-2" .failed

end AiOrchestrator
