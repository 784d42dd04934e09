import AiOrchestrator.Tools.WriteBudget

/-!
# The policy of writes

What the policy adapter of the tool set promises about sequences of writes.
-/

namespace AiOrchestrator

namespace LocalToolSet

section Budget

variable (host : ToolHost) (policy : ToolPolicyAdapter) (fixed : FixedSystem)

variable {host policy fixed} in
theorem exceedsBudget_iff {before : List String} {path : String} :
    ExceedsBudget host policy fixed before path ↔
      (modifiedAfter host policy fixed [] before).length ≤ policy.maxModifiedFiles ∧
        policy.maxModifiedFiles < (advance host policy fixed
          (modifiedAfter host policy fixed [] before) path).length := by
  have hsnoc : modifiedAfter host policy fixed [] (before ++ [path]) =
      advance host policy fixed (modifiedAfter host policy fixed [] before) path := by
    rw [modifiedAfter, List.foldl_append]
    rfl
  rw [← hsnoc, length_modifiedAfter, length_modifiedAfter]
  rfl

variable {host policy fixed} in
/-- A path that was requested within the budget, and again after the call over it, was accepted
and is refused. -/
theorem not_requested_of_accepted_again {before rest : List String} {path later : String}
    (hagain : (session host policy fixed (before ++ path :: rest) []).Pairwise fun earlier later =>
      ∀ guardedPath, earlier.2 = .ok guardedPath →
        resolvedPath host fixed later.1 = guardedPath → later.2 = .ok guardedPath)
    (hexceeds : ExceedsBudget host policy fixed before path) (hlater : later ∈ rest) :
    resolvedPath host fixed later ∉ requestedPaths host policy fixed before := by
  obtain ⟨hle, hlt⟩ := exceedsBudget_iff.mp hexceeds
  intro hrequested
  obtain ⟨earlier, hearlier, hsame⟩ := List.mem_map.mp (List.mem_toFinset.mp hrequested)
  obtain ⟨hbefore, hpasses⟩ := List.mem_filter.mp hearlier
  have haccepted := accepted_of_within hle hbefore hpasses
  rw [session_append] at hagain
  have hacross := (List.pairwise_append.mp hagain).2.2 _ haccepted
  have hcalled : later ∈ (session host policy fixed (path :: rest)
      (modifiedAfter host policy fixed [] before)).map Prod.fst := by
    rw [map_fst_session]
    exact List.mem_cons_of_mem path hlater
  obtain ⟨call, hcall, rfl⟩ := List.mem_map.mp hcalled
  obtain ⟨error, herror⟩ := refused_of_advance hlt hcall
  have hok := hacross call hcall _ rfl hsame.symm
  rw [herror] at hok
  cases hok

/-- **The write budget**: a session keeps it exactly where, once a call has exceeded the budget,
all later calls whose paths pass the checks on mode and paths are for the path of that call; and as
far as only acceptance is looked at, exactly where none of them is for a path that was requested
before that call. -/
theorem writeBudget_iff (paths : List String) :
    (WriteBudget host policy fixed id paths ↔
      ∀ before path rest, paths = before ++ path :: rest →
        ExceedsBudget host policy fixed before path →
        ∀ later ∈ rest, passes host policy fixed later = true →
          resolvedPath host fixed later = resolvedPath host fixed path) ∧
    (WriteBudget host policy fixed Except.toOption paths ↔
      ∀ before path rest, paths = before ++ path :: rest →
        ExceedsBudget host policy fixed before path →
        ∀ later ∈ rest, passes host policy fixed later = true →
          resolvedPath host fixed later ∉ requestedPaths host policy fixed before) := by
  have hstart : ([] : List String).length ≤ policy.maxModifiedFiles := Nat.zero_le _
  have haccepted : (acceptedPaths (session host policy fixed paths [])).card ≤
      policy.maxModifiedFiles := by
    obtain ⟨files, -, hcard, hsubset⟩ :=
      @exists_accepted host policy fixed [] List.nodup_nil hstart paths
    exact (Finset.card_le_card hsubset).trans hcard
  have hmem : ∀ before r, r ∈ modifiedAfter host policy fixed [] before ↔
      r ∈ requestedPaths host policy fixed before := fun before r =>
    (mem_modifiedAfter_iff [] before).trans (or_iff_right List.not_mem_nil)
  have hsnoc : ∀ before path, modifiedAfter host policy fixed [] (before ++ [path]) =
      advance host policy fixed (modifiedAfter host policy fixed [] before) path := by
    intro before path
    rw [modifiedAfter, List.foldl_append]
    rfl
  -- new paths only, in terms of the modified files
  have hbeyond : (∀ before path rest, paths = before ++ path :: rest →
      ExceedsBudget host policy fixed before path →
      ∀ later ∈ rest, passes host policy fixed later = true →
        resolvedPath host fixed later ∉ requestedPaths host policy fixed before) →
      OnlyNewBeyond host policy fixed paths [] := by
    intro hnew before path rest hsplit hle hlt later hlater hpasses
    rw [hmem]
    rw [hsnoc] at hlt
    exact hnew before path rest hsplit (exceedsBudget_iff.mpr ⟨hle, hlt⟩) later hlater hpasses
  constructor
  · constructor
    · intro hbudget before path rest hsplit hexceeds
      obtain ⟨hle, hlt⟩ := exceedsBudget_iff.mp hexceeds
      refine same_of_leaves hle hlt fun kept hkept => ?_
      -- the calls before are kept
      have hleaves := hbudget.refused_leaves
        (session host policy fixed before [] ++ kept) (by
          rw [hsplit, session_append]
          exact (WithoutRefused.refl _).append hkept)
      rw [List.map_append, map_fst_session, session_append, List.map_append, List.map_append]
        at hleaves
      exact List.append_cancel_left hleaves
    · intro hsame
      have hnew := hbeyond fun before path rest hsplit hexceeds later hlater hpasses => by
        obtain ⟨hle, hlt⟩ := exceedsBudget_iff.mp hexceeds
        rw [hsame before path rest hsplit hexceeds later hlater hpasses, ← hmem]
        exact (exceeding hle hlt).2.1
      refine ⟨haccepted, leaves_of_exceeding hstart ?_, pairwise_accepted hstart hnew⟩
      intro before path rest hsplit hle hlt
      rw [hsnoc] at hlt
      exact leaves_of_same hle hlt
        (hsame before path rest hsplit (exceedsBudget_iff.mpr ⟨hle, hlt⟩))
  · constructor
    · intro hbudget before path rest hsplit hexceeds later hlater _
      have hagain := hbudget.accepted_again
      rw [hsplit] at hagain
      exact not_requested_of_accepted_again hagain hexceeds hlater
    · intro hnew
      refine ⟨haccepted, leaves_of_exceeding hstart ?_, pairwise_accepted hstart (hbeyond hnew)⟩
      intro before path rest hsplit hle hlt
      rw [hsnoc] at hlt
      refine leaves_of_new (nodup_modifiedAfter List.nodup_nil before) hle hlt ?_
      intro later hlater hpasses
      rw [hmem]
      exact hnew before path rest hsplit (exceedsBudget_iff.mpr ⟨hle, hlt⟩) later hlater hpasses

/-- A platform with paths that are normalized. -/
def plainHost : ToolHost where
  resolve := id
  resolveIn directory path := directory ++ "/" ++ path
  dirname _ := "/w"
  relative _ _ := ""
  join directory path := directory ++ "/" ++ path
  isAbsolute path := Text.startsWith path "/"
  issue _ _ := "Invalid input"

/-- A system where every path that is asked for exists and has no links. -/
def plainSystem : FixedSystem
  | .existsSync _ => true
  | .realpathSync path => some path
  | .parentAborted | .timerFired => false
  | .aborted => none
  | .addModifiedFile _ => (0 : Nat)
  | .readFile _ => .ok ""
  | .mkdir _ | .writeFile _ _ => .ok ()
  | .readdir _ | .searchWithNode _ _ => .ok []
  | .execFile _ _ _ => { failure := none, stdout := "", stderr := "", modified := [] }

/-- The policy of the directory `/w` with room for one file. -/
def oneFilePolicy : ToolPolicyAdapter where
  normalizedScopes := ["/w"]
  normalizedProtectedScopes := []
  writeMode := .workspaceWrite
  maxModifiedFiles := 1
  allowedCommands := []

/-- The answers of a session, as far as they are accepted. -/
def sessionDecisions (paths : List String) : List (Option String) :=
  (session plainHost oneFilePolicy plainSystem paths []).map fun call => call.2.toOption

/-- **A refused path uses up the budget**: `/w/a` is accepted, `/w/b` is refused, and then `/w/a` is
refused although it was accepted before. -/
theorem budget_used_up :
    sessionDecisions ["/w/a", "/w/b", "/w/a"] = [some "/w/a", none, none] ∧
      ¬ WriteBudget plainHost oneFilePolicy plainSystem Except.toOption
        ["/w/a", "/w/b", "/w/a"] := by
  refine ⟨by decide, fun hbudget => ?_⟩
  have hexceeds : ExceedsBudget plainHost oneFilePolicy plainSystem ["/w/a"] "/w/b" := by
    unfold ExceedsBudget
    decide
  have hrequested : resolvedPath plainHost plainSystem "/w/a" ∈
      requestedPaths plainHost oneFilePolicy plainSystem ["/w/a"] := by
    decide
  exact not_requested_of_accepted_again hbudget.accepted_again hexceeds
    (List.mem_singleton_self _) hrequested

end Budget

end LocalToolSet

end AiOrchestrator
