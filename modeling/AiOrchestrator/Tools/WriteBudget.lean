import Mathlib.Data.Finset.Card
import AiOrchestrator.Tools.Writes

/-!
# The write budget

`assertWriteAllowed` called time after time on one adapter, on a system whose answers do not change.
A call that passes the checks on mode and paths adds its path to the modified files before their
number is compared with the maximum, and the path stays there when the call is refused for it
(`writeAnswer_eq`).

A session is followed in two parts: up to the first call over the budget the modified files are the
paths accepted so far, and a refused call changes nothing (`leaves_of_exceeding`); from it on every
call that passes the checks is over the budget.
-/

namespace AiOrchestrator

/-- The calls that are not about the modified files. -/
def SystemCall.Outside : SystemCall → Prop
  | addModifiedFile _ => False
  | _ => True

namespace LocalToolSet

/-- A system whose answers do not change. -/
abbrev FixedSystem := (o : SystemCall) → o.Ans

def FixedSystem.answer (fixed : FixedSystem) (o : SystemCall) (_ : Unit) : o.Ans × Unit :=
  (fixed o, ())

/-- What a call of `assertWriteAllowed` returns or throws. -/
abbrev WriteAnswer := Except ToolError String

/-- Some refused calls of a session left out. -/
inductive WithoutRefused : List (String × WriteAnswer) → List (String × WriteAnswer) → Prop
  | nil : WithoutRefused [] []
  | keep {calls kept : List (String × WriteAnswer)} (call : String × WriteAnswer)
      (h : WithoutRefused calls kept) : WithoutRefused (call :: calls) (call :: kept)
  | drop {calls kept : List (String × WriteAnswer)} (path : String) (error : ToolError)
      (h : WithoutRefused calls kept) : WithoutRefused ((path, .error error) :: calls) kept

section Sessions

variable (host : ToolHost) (policy : ToolPolicyAdapter) (fixed : FixedSystem)

/-- The path that a target is resolved to. -/
def resolvedPath (path : String) : String := (normalized fixed.answer host path ((), [])).1

/-- A call of `assertWriteAllowed`, with the modified files before and after it. -/
def writeAnswer (path : String) (modified : List String) : WriteAnswer × List String :=
  let (result, _, modified) :=
    Act.exec (handle fixed.answer) (policy.assertWriteAllowed host path) ((), modified)
  (result, modified)

/-- **A session**: calls of `assertWriteAllowed` one after the other, with their answers. -/
def session : List String → List String → List (String × WriteAnswer)
  | [], _ => []
  | path :: paths, modified =>
    let (answer, modified) := writeAnswer host policy fixed path modified
    (path, answer) :: session paths modified

/-- A target whose path passes the checks on mode and paths. -/
def passes (path : String) : Bool := (policy.checkWritePath (resolvedPath host fixed path)).isOk

/-- The paths of the targets that pass these checks. -/
def requestedPaths (paths : List String) : Finset String :=
  ((paths.filter (passes host policy fixed)).map (resolvedPath host fixed)).toFinset

/-- After the calls `before`, the call `path` is the first over the budget. -/
def ExceedsBudget (before : List String) (path : String) : Prop :=
  (requestedPaths host policy fixed before).card ≤ policy.maxModifiedFiles ∧
    policy.maxModifiedFiles < (requestedPaths host policy fixed (before ++ [path])).card

/-- The paths that calls were answered with. -/
def acceptedPaths (calls : List (String × WriteAnswer)) : Finset String :=
  (calls.filterMap fun call => call.2.toOption).toFinset

/-- **The write budget** of a session, where `view` is what of an answer is looked at: no more
distinct paths are accepted than the maximum, what is answered to the other calls does not depend on
a refused one, and an accepted path is accepted again. -/
structure WriteBudget {β : Type} (view : WriteAnswer → β) (paths : List String) : Prop where
  accepted_le :
    (acceptedPaths (session host policy fixed paths [])).card ≤ policy.maxModifiedFiles
  refused_leaves : ∀ kept, WithoutRefused (session host policy fixed paths []) kept →
    (session host policy fixed (kept.map Prod.fst) []).map (fun call => view call.2) =
      kept.map fun call => view call.2
  accepted_again : (session host policy fixed paths []).Pairwise fun earlier later =>
    ∀ guardedPath, earlier.2 = .ok guardedPath → resolvedPath host fixed later.1 = guardedPath →
      later.2 = .ok guardedPath

end Sessions

section Budget

variable {host : ToolHost} {policy : ToolPolicyAdapter} {fixed : FixedSystem}

/-- The modified files after a call. -/
def advance (host : ToolHost) (policy : ToolPolicyAdapter) (fixed : FixedSystem)
    (modified : List String) (path : String) : List String :=
  if passes host policy fixed path then modified.insert (resolvedPath host fixed path)
  else modified

/-- A call that is not about the modified files has one answer and leaves the state. -/
theorem handle_fixed {o : SystemCall} (ho : o.Outside) (s : ToolState Unit) :
    handle fixed.answer o s = (fixed o, s) := by
  cases o with
  | addModifiedFile path => exact ho.elim
  | _ => rfl

theorem exec_fixed {α : Type} {p : SystemAction α} (hp : p.Uses SystemCall.Outside)
    (s s' : ToolState Unit) :
    p.exec (handle fixed.answer) s = ((p.exec (handle fixed.answer) s').1, s) := by
  induction p generalizing s s' with
  | ret a => rfl
  | ask o k ih =>
    rw [Prog.exec_ask, Prog.exec_ask, handle_fixed hp.1, handle_fixed hp.1]
    exact ih (fixed o) (hp.2 (fixed o)) s s'

theorem normalized_fixed (path : String) (s : ToolState Unit) :
    normalized fixed.answer host path s = (resolvedPath host fixed path, s) := by
  refine exec_fixed ?_ s ((), [])
  refine Prog.uses_perform_bind trivial fun found => Prog.uses_perform_bind trivial fun real => ?_
  cases real <;> trivial

/-- **A call**: where its path passes the checks it is added to the modified files, and refused
where these are then too many. -/
theorem writeAnswer_eq (path : String) (modified : List String) :
    (passes host policy fixed path = true ∧ writeAnswer host policy fixed path modified =
      ((policy.checkModifiedFiles (advance host policy fixed modified path).length).map
        (fun _ => resolvedPath host fixed path), advance host policy fixed modified path)) ∨
    (passes host policy fixed path = false ∧
      advance host policy fixed modified path = modified ∧
      ∃ error, ∀ modified, writeAnswer host policy fixed path modified = (.error error, modified)) := by
  have hexec : ∀ modified, Act.exec (handle fixed.answer)
      (ExceptT.lift (normalizePath host path) : ToolAction String) ((), modified) =
      (.ok (resolvedPath host fixed path), (), modified) := by
    intro modified
    rw [Act.exec_lift]
    have hnormalized := @normalized_fixed host fixed path ((), modified)
    rw [normalized] at hnormalized
    rw [hnormalized]
  rcases hcheck : policy.checkWritePath (resolvedPath host fixed path) with error | u
  · -- the checks on mode and paths refuse
    have hpasses : passes host policy fixed path = false := by
      rw [passes, hcheck]
      rfl
    refine Or.inr ⟨hpasses, by rw [advance, hpasses]; rfl, error, fun modified => ?_⟩
    rw [writeAnswer, ToolPolicyAdapter.assertWriteAllowed, Act.exec_bind, hexec]
    simp only [hcheck, Act.exec_bind, Act.exec_ofExcept]
  · have hpasses : passes host policy fixed path = true := by
      rw [passes, hcheck]
      rfl
    have hadvance : advance host policy fixed modified path =
        modified.insert (resolvedPath host fixed path) := by
      rw [advance, hpasses]
      rfl
    refine Or.inl ⟨hpasses, ?_⟩
    rw [writeAnswer, ToolPolicyAdapter.assertWriteAllowed, Act.exec_bind, hexec, hadvance]
    simp only [hcheck, Act.exec_bind, Act.exec_ofExcept, system, Act.exec_perform, handle]
    cases policy.checkModifiedFiles (modified.insert (resolvedPath host fixed path)).length <;> rfl

theorem checkModifiedFiles_of_le {size : Nat} (h : size ≤ policy.maxModifiedFiles) :
    policy.checkModifiedFiles size = .ok () := if_neg (Nat.not_lt.mpr h)

/-- The error of a call over the budget. -/
def budgetError (policy : ToolPolicyAdapter) (size : Nat) : ToolError :=
  safetyViolation s!"Maximum modified files threshold exceeded: {size}/{policy.maxModifiedFiles}"

theorem checkModifiedFiles_of_lt {size : Nat} (h : policy.maxModifiedFiles < size) :
    policy.checkModifiedFiles size = .error (budgetError policy size) := if_pos h

/-- The text of the error tells the number of modified files. -/
theorem budgetError_injective {size size' : Nat}
    (h : budgetError policy size = budgetError policy size') : size = size' := by
  have hmessage := congrArg String.toList (ToolError.other.inj h)
  simp only [toString, String.toList_append, List.append_assoc, List.append_cancel_left_eq]
    at hmessage
  have hdigits := List.append_cancel_right hmessage
  rw [Nat.toList_repr, Nat.toList_repr] at hdigits
  have hvalue := congrArg (fun digits => Nat.ofDigitChars 10 digits 0) hdigits
  simp only [Nat.ofDigitChars_toDigits (by decide : 1 < 10) (Nat.le_refl 10)] at hvalue
  exact hvalue

/-! ### One call -/

section Call

variable {path : String} {modified : List String}

theorem advance_of_passes (h : passes host policy fixed path = true) :
    advance host policy fixed modified path = modified.insert (resolvedPath host fixed path) :=
  if_pos h

theorem advance_of_not (h : passes host policy fixed path = false) :
    advance host policy fixed modified path = modified := by
  rw [advance, h]
  rfl

theorem subset_advance : modified ⊆ advance host policy fixed modified path := by
  unfold advance
  split
  · exact fun _ h => List.mem_insert_of_mem h
  · exact fun _ h => h

theorem nodup_advance (h : modified.Nodup) : (advance host policy fixed modified path).Nodup := by
  unfold advance
  split
  · exact h.insert
  · exact h

theorem writeAnswer_accepted (h : passes host policy fixed path = true)
    (hle : (advance host policy fixed modified path).length ≤ policy.maxModifiedFiles) :
    writeAnswer host policy fixed path modified =
      (.ok (resolvedPath host fixed path), advance host policy fixed modified path) := by
  rcases @writeAnswer_eq host policy fixed path modified with
    ⟨-, heq⟩ | ⟨hnot, -⟩
  · rw [heq, checkModifiedFiles_of_le hle]
    rfl
  · cases h.symm.trans hnot

theorem writeAnswer_over (h : passes host policy fixed path = true)
    (hlt : policy.maxModifiedFiles < (advance host policy fixed modified path).length) :
    writeAnswer host policy fixed path modified =
      (.error (budgetError policy (advance host policy fixed modified path).length),
        advance host policy fixed modified path) := by
  rcases @writeAnswer_eq host policy fixed path modified with
    ⟨-, heq⟩ | ⟨hnot, -⟩
  · rw [heq, checkModifiedFiles_of_lt hlt]
    rfl
  · cases h.symm.trans hnot

theorem writeAnswer_refused (h : passes host policy fixed path = false) :
    ∃ error, ∀ modified, writeAnswer host policy fixed path modified = (.error error, modified) := by
  rcases @writeAnswer_eq host policy fixed path [] with
    ⟨hpasses, -⟩ | ⟨-, -, herror⟩
  · cases hpasses.symm.trans h
  · exact herror

theorem writeAnswer_snd (path : String) (modified : List String) :
    (writeAnswer host policy fixed path modified).2 = advance host policy fixed modified path := by
  cases h : passes host policy fixed path with
  | false =>
    obtain ⟨error, herror⟩ := @writeAnswer_refused host policy fixed path h
    rw [herror, advance_of_not h]
  | true =>
    rcases Nat.lt_or_ge policy.maxModifiedFiles
      (advance host policy fixed modified path).length with hlt | hle
    · rw [writeAnswer_over h hlt]
    · rw [writeAnswer_accepted h hle]

end Call

/-! ### Sessions -/

/-- The modified files after calls. -/
abbrev modifiedAfter (host : ToolHost) (policy : ToolPolicyAdapter) (fixed : FixedSystem)
    (modified : List String) (paths : List String) : List String :=
  paths.foldl (advance host policy fixed) modified

theorem session_cons (path : String) (paths modified : List String) :
    session host policy fixed (path :: paths) modified =
      (path, (writeAnswer host policy fixed path modified).1) ::
        session host policy fixed paths (advance host policy fixed modified path) := by
  rw [← writeAnswer_snd]
  rfl

theorem session_append (paths paths' modified : List String) :
    session host policy fixed (paths ++ paths') modified =
      session host policy fixed paths modified ++
        session host policy fixed paths' (modifiedAfter host policy fixed modified paths) := by
  induction paths generalizing modified with
  | nil => rfl
  | cons path paths ih =>
    rw [List.cons_append, session_cons, session_cons, ih]
    rfl

theorem map_fst_session (paths modified : List String) :
    (session host policy fixed paths modified).map Prod.fst = paths := by
  induction paths generalizing modified with
  | nil => rfl
  | cons path paths ih =>
    rw [session_cons, List.map_cons, ih]

theorem nodup_modifiedAfter {modified : List String} (h : modified.Nodup) (paths : List String) :
    (modifiedAfter host policy fixed modified paths).Nodup := by
  induction paths generalizing modified with
  | nil => exact h
  | cons path paths ih => exact ih (nodup_advance h)

theorem mem_modifiedAfter_iff {r : String} (modified paths : List String) :
    r ∈ modifiedAfter host policy fixed modified paths ↔
      r ∈ modified ∨ r ∈ requestedPaths host policy fixed paths := by
  induction paths generalizing modified with
  | nil =>
    simp only [requestedPaths, modifiedAfter, List.foldl_nil, List.filter_nil, List.map_nil,
      List.toFinset_nil, Finset.notMem_empty, or_false]
  | cons path paths ih =>
    show r ∈ modifiedAfter host policy fixed (advance host policy fixed modified path) paths ↔ _
    rw [ih]
    cases h : passes host policy fixed path with
    | false =>
      rw [advance_of_not h]
      simp only [requestedPaths, List.filter_cons, h, Bool.false_eq_true, if_false]
    | true =>
      rw [advance_of_passes h]
      simp only [requestedPaths, List.filter_cons, h, if_true, List.map_cons, List.toFinset_cons,
        List.mem_insert_iff, Finset.mem_insert]
      exact or_right_comm.trans (by rw [or_comm, ← or_assoc, or_comm])

/-- The number of the modified files of a session is that of its requested paths. -/
theorem length_modifiedAfter (paths : List String) :
    (modifiedAfter host policy fixed [] paths).length =
      (requestedPaths host policy fixed paths).card := by
  rw [← List.toFinset_card_of_nodup (nodup_modifiedAfter List.nodup_nil paths)]
  congr 1
  ext r
  rw [List.mem_toFinset, mem_modifiedAfter_iff]
  exact or_iff_right List.not_mem_nil

/-! ### Refused calls left out -/

theorem WithoutRefused.cons_inv {call : String × WriteAnswer}
    {calls kept : List (String × WriteAnswer)} (h : WithoutRefused (call :: calls) kept) :
    (∃ kept', kept = call :: kept' ∧ WithoutRefused calls kept') ∨
      (∃ error, call.2 = .error error) ∧ WithoutRefused calls kept := by
  cases h with
  | keep _ h => exact .inl ⟨_, rfl, h⟩
  | drop path error h => exact .inr ⟨⟨error, rfl⟩, h⟩

theorem WithoutRefused.refl (calls : List (String × WriteAnswer)) : WithoutRefused calls calls := by
  induction calls with
  | nil => exact .nil
  | cons call calls ih => exact .keep call ih

theorem WithoutRefused.append {calls calls' kept kept' : List (String × WriteAnswer)}
    (h : WithoutRefused calls kept) (h' : WithoutRefused calls' kept') :
    WithoutRefused (calls ++ calls') (kept ++ kept') := by
  induction h with
  | nil => exact h'
  | keep call _ ih => exact .keep call ih
  | drop path error _ ih => exact .drop path error ih

theorem withoutRefused_filter {p : String × WriteAnswer → Bool}
    {calls : List (String × WriteAnswer)}
    (h : ∀ call ∈ calls, p call = false → ∃ error, call.2 = .error error) :
    WithoutRefused calls (calls.filter p) := by
  induction calls with
  | nil => exact .nil
  | cons call calls ih =>
    have hrest := ih fun call' hmem => h call' (List.mem_cons_of_mem call hmem)
    cases hp : p call with
    | true =>
      rw [List.filter_cons_of_pos hp]
      exact .keep call hrest
    | false =>
      rw [List.filter_cons_of_neg (by rw [hp]; exact Bool.false_ne_true)]
      obtain ⟨path, answer⟩ := call
      obtain ⟨error, rfl⟩ := h _ List.mem_cons_self hp
      exact .drop path error hrest

section Leaves

variable {β : Type} {view : WriteAnswer → β}

/-- The refused calls of a session, from some modified files, do not show in the answers that the
others get from other modified files. -/
def Leaves (host : ToolHost) (policy : ToolPolicyAdapter) (fixed : FixedSystem)
    (view : WriteAnswer → β) (paths modified modified' : List String) : Prop :=
  ∀ kept, WithoutRefused (session host policy fixed paths modified) kept →
    (session host policy fixed (kept.map Prod.fst) modified').map (fun call => view call.2) =
      kept.map fun call => view call.2

/-- From modified files between which the answers to the calls do not tell, refused calls do not
show. -/
theorem leaves_of_settled {C : List String → Prop} {paths : List String}
    (hadvance : ∀ path ∈ paths, ∀ m, C m → C (advance host policy fixed m path))
    (hview : ∀ path ∈ paths, ∀ m m', C m → C m' →
      view (writeAnswer host policy fixed path m).1 = view (writeAnswer host policy fixed path m').1)
    {modified modified' : List String} (hm : C modified) (hm' : C modified') :
    Leaves host policy fixed view paths modified modified' := by
  induction paths generalizing modified modified' with
  | nil =>
    intro kept h
    cases h
    rfl
  | cons path paths ih =>
    intro kept h
    have hrest := @ih (fun p hp => hadvance p (List.mem_cons_of_mem path hp))
      fun p hp => hview p (List.mem_cons_of_mem path hp)
    rw [session_cons] at h
    rcases h.cons_inv with ⟨kept', rfl, h'⟩ | ⟨-, h'⟩
    · rw [List.map_cons, session_cons, List.map_cons, List.map_cons,
        hrest (hadvance path List.mem_cons_self modified hm)
          (hadvance path List.mem_cons_self modified' hm') kept' h',
        hview path List.mem_cons_self modified' modified hm' hm]
    · exact hrest (hadvance path List.mem_cons_self modified hm) hm' kept h'

/-- **Up to the first call over the budget** a refused call changes nothing: whether refused calls
show is decided from that call on. -/
theorem leaves_of_exceeding {paths modified : List String}
    (hle : modified.length ≤ policy.maxModifiedFiles)
    (hexceed : ∀ before path rest, paths = before ++ path :: rest →
      (modifiedAfter host policy fixed modified before).length ≤ policy.maxModifiedFiles →
      policy.maxModifiedFiles <
        (modifiedAfter host policy fixed modified (before ++ [path])).length →
      Leaves host policy fixed view (path :: rest)
        (modifiedAfter host policy fixed modified before)
        (modifiedAfter host policy fixed modified before)) :
    Leaves host policy fixed view paths modified modified := by
  induction paths generalizing modified with
  | nil =>
    intro kept h
    cases h
    rfl
  | cons path paths ih =>
    rcases Nat.lt_or_ge policy.maxModifiedFiles
      (advance host policy fixed modified path).length with hlt | hge
    · exact hexceed [] path paths rfl hle hlt
    · have hrest := ih hge fun before path' rest hsplit =>
        hexceed (path :: before) path' rest (by rw [hsplit]; rfl)
      intro kept h
      rw [session_cons] at h
      rcases h.cons_inv with ⟨kept', rfl, h'⟩ | ⟨⟨error, herror⟩, h'⟩
      · rw [List.map_cons, session_cons, List.map_cons, List.map_cons, hrest kept' h']
      · -- the call is refused for its mode or path, which changes no modified file
        cases hpasses : passes host policy fixed path with
        | true =>
          rw [writeAnswer_accepted hpasses hge] at herror
          cases herror
        | false =>
          rw [advance_of_not hpasses] at h' hrest
          exact hrest kept h'

end Leaves

/-! ### Accepted paths -/

/-- Beyond the budget no call is accepted. -/
theorem refused_of_lt {modified : List String} (hlt : policy.maxModifiedFiles < modified.length)
    {paths : List String} {call : String × WriteAnswer}
    (h : call ∈ session host policy fixed paths modified) : ∃ error, call.2 = .error error := by
  induction paths generalizing modified with
  | nil => exact absurd h List.not_mem_nil
  | cons path paths ih =>
    have hlonger : policy.maxModifiedFiles < (advance host policy fixed modified path).length := by
      refine Nat.lt_of_lt_of_le hlt ?_
      unfold advance
      split
      · exact List.length_le_length_insert
      · exact Nat.le_refl _
    rw [session_cons] at h
    rcases List.mem_cons.mp h with rfl | h
    · cases hpasses : passes host policy fixed path with
      | true =>
        rw [writeAnswer_over hpasses hlonger]
        exact ⟨_, rfl⟩
      | false =>
        obtain ⟨error, herror⟩ := @writeAnswer_refused host policy fixed path hpasses
        rw [herror]
        exact ⟨_, rfl⟩
    · exact ih hlonger h

/-- From the call over the budget on no call is accepted. -/
theorem refused_of_advance {path : String} {paths modified : List String}
    (hlt : policy.maxModifiedFiles < (advance host policy fixed modified path).length)
    {call : String × WriteAnswer}
    (h : call ∈ session host policy fixed (path :: paths) modified) :
    ∃ error, call.2 = .error error := by
  rw [session_cons] at h
  rcases List.mem_cons.mp h with rfl | h
  · cases hpasses : passes host policy fixed path with
    | true =>
      rw [writeAnswer_over hpasses hlt]
      exact ⟨_, rfl⟩
    | false =>
      obtain ⟨error, herror⟩ := @writeAnswer_refused host policy fixed path hpasses
      rw [herror]
      exact ⟨_, rfl⟩
  · exact refused_of_lt hlt h

/-- The accepted paths are among modified files that are not too many. -/
theorem exists_accepted {modified : List String} (hnodup : modified.Nodup)
    (hle : modified.length ≤ policy.maxModifiedFiles) (paths : List String) :
    ∃ files : Finset String, modified.toFinset ⊆ files ∧ files.card ≤ policy.maxModifiedFiles ∧
      acceptedPaths (session host policy fixed paths modified) ⊆ files := by
  induction paths generalizing modified with
  | nil =>
    refine ⟨modified.toFinset, Finset.Subset.refl _, ?_, Finset.empty_subset _⟩
    exact (List.toFinset_card_le modified).trans hle
  | cons path paths ih =>
    rcases Nat.lt_or_ge policy.maxModifiedFiles
      (advance host policy fixed modified path).length with hlt | hge
    · -- this call and all later ones are refused
      refine ⟨modified.toFinset, Finset.Subset.refl _, (List.toFinset_card_le _).trans hle, ?_⟩
      intro r hr
      obtain ⟨call, hcall, hok⟩ := List.mem_filterMap.mp (List.mem_toFinset.mp hr)
      obtain ⟨error, herror⟩ := refused_of_advance hlt hcall
      rw [herror] at hok
      cases hok
    · obtain ⟨files, hsubset, hcard, haccepted⟩ := ih (nodup_advance hnodup) hge
      have hmodified : modified.toFinset ⊆ files := fun r hr =>
        hsubset (List.mem_toFinset.mpr (subset_advance (List.mem_toFinset.mp hr)))
      refine ⟨files, hmodified, hcard, fun r hr => ?_⟩
      obtain ⟨call, hcall, hok⟩ := List.mem_filterMap.mp (List.mem_toFinset.mp hr)
      rw [session_cons] at hcall
      rcases List.mem_cons.mp hcall with rfl | hcall
      · cases hpasses : passes host policy fixed path with
        | true =>
          rw [writeAnswer_accepted hpasses hge] at hok
          obtain rfl : resolvedPath host fixed path = r := Option.some.inj hok
          refine hsubset (List.mem_toFinset.mpr ?_)
          rw [advance_of_passes hpasses]
          exact List.mem_insert_self
        | false =>
          obtain ⟨error, herror⟩ := @writeAnswer_refused host policy fixed path hpasses
          rw [herror] at hok
          cases hok
      · exact haccepted (List.mem_toFinset.mpr (List.mem_filterMap.mpr ⟨call, hcall, hok⟩))

theorem length_le_modifiedAfter (modified paths : List String) :
    modified.length ≤ (modifiedAfter host policy fixed modified paths).length := by
  induction paths generalizing modified with
  | nil => exact Nat.le_refl _
  | cons path paths ih =>
    refine Nat.le_trans ?_ (ih (advance host policy fixed modified path))
    unfold advance
    split
    · exact List.length_le_length_insert
    · exact Nat.le_refl _

/-- Within the budget a call whose path passes the checks is accepted. -/
theorem accepted_of_within {modified paths : List String} {path : String}
    (hle : (modifiedAfter host policy fixed modified paths).length ≤ policy.maxModifiedFiles)
    (hmem : path ∈ paths) (hpasses : passes host policy fixed path = true) :
    (path, .ok (resolvedPath host fixed path)) ∈ session host policy fixed paths modified := by
  induction paths generalizing modified with
  | nil => exact absurd hmem List.not_mem_nil
  | cons path' paths ih =>
    rw [session_cons]
    rcases List.mem_cons.mp hmem with rfl | hmem
    · rw [writeAnswer_accepted hpasses ((length_le_modifiedAfter _ paths).trans hle)]
      exact List.mem_cons_self
    · exact List.mem_cons_of_mem _ (ih hle hmem)

/-- A path that was requested before the budget was exceeded is not requested after it. -/
def OnlyNewBeyond (host : ToolHost) (policy : ToolPolicyAdapter) (fixed : FixedSystem)
    (paths modified : List String) : Prop :=
  ∀ before path rest, paths = before ++ path :: rest →
    (modifiedAfter host policy fixed modified before).length ≤ policy.maxModifiedFiles →
    policy.maxModifiedFiles <
      (modifiedAfter host policy fixed modified (before ++ [path])).length →
    ∀ later ∈ rest, passes host policy fixed later = true →
      resolvedPath host fixed later ∉ modifiedAfter host policy fixed modified before

theorem OnlyNewBeyond.tail {path : String} {paths modified : List String}
    (h : OnlyNewBeyond host policy fixed (path :: paths) modified) :
    OnlyNewBeyond host policy fixed paths (advance host policy fixed modified path) := by
  intro before path' rest hsplit
  exact h (path :: before) path' rest (by rw [hsplit]; rfl)

theorem accepted_of_mem {paths modified : List String} {guardedPath : String}
    (hle : modified.length ≤ policy.maxModifiedFiles) (hmem : guardedPath ∈ modified)
    (hpasses : ∀ path, resolvedPath host fixed path = guardedPath →
      passes host policy fixed path = true)
    (hnew : OnlyNewBeyond host policy fixed paths modified)
    {call : String × WriteAnswer} (hcall : call ∈ session host policy fixed paths modified)
    (hpath : resolvedPath host fixed call.1 = guardedPath) : call.2 = .ok guardedPath := by
  induction paths generalizing modified with
  | nil => exact absurd hcall List.not_mem_nil
  | cons path paths ih =>
    rw [session_cons] at hcall
    rcases List.mem_cons.mp hcall with rfl | hcall
    · have hsame : advance host policy fixed modified path = modified := by
        rw [advance_of_passes (hpasses path hpath), hpath]
        exact List.insert_of_mem hmem
      rw [writeAnswer_accepted (hpasses path hpath) (by rw [hsame]; exact hle), hpath]
    · rcases Nat.lt_or_ge policy.maxModifiedFiles
        (advance host policy fixed modified path).length with hlt | hge
      · -- the path was requested before, so no later call asks for it
        have hlater : call.1 ∈ paths := by
          rw [← @map_fst_session host policy fixed paths]
          exact List.mem_map_of_mem hcall
        refine absurd ?_ (hnew [] path paths rfl hle hlt call.1 hlater (hpasses _ hpath))
        rw [hpath]
        exact hmem
      · exact ih hge (subset_advance hmem) hnew.tail hcall

/-- **Accepted again**: where only new paths are requested beyond the budget, an accepted path is
accepted again. -/
theorem pairwise_accepted {paths modified : List String}
    (hle : modified.length ≤ policy.maxModifiedFiles)
    (hnew : OnlyNewBeyond host policy fixed paths modified) :
    (session host policy fixed paths modified).Pairwise fun earlier later =>
      ∀ guardedPath, earlier.2 = .ok guardedPath →
        resolvedPath host fixed later.1 = guardedPath → later.2 = .ok guardedPath := by
  induction paths generalizing modified with
  | nil => exact List.Pairwise.nil
  | cons path paths ih =>
    rcases Nat.lt_or_ge policy.maxModifiedFiles
      (advance host policy fixed modified path).length with hlt | hge
    · -- no call is accepted any more
      refine List.pairwise_of_forall_mem_list fun earlier hearlier later _ guardedPath hok => ?_
      obtain ⟨error, herror⟩ := refused_of_advance hlt hearlier
      rw [herror] at hok
      cases hok
    · rw [session_cons]
      refine List.pairwise_cons.mpr ⟨fun later hlater guardedPath hok hpath => ?_, ih hge hnew.tail⟩
      cases hpasses : passes host policy fixed path with
      | false =>
        obtain ⟨error, herror⟩ := @writeAnswer_refused host policy fixed path hpasses
        rw [herror] at hok
        cases hok
      | true =>
        rw [writeAnswer_accepted hpasses hge] at hok
        obtain rfl : resolvedPath host fixed path = guardedPath := Except.ok.inj hok
        refine accepted_of_mem hge ?_ (fun path' hpath' => ?_) hnew.tail hlater hpath
        · rw [advance_of_passes hpasses]
          exact List.mem_insert_self
        · rw [passes, hpath']
          exact hpasses

/-! ### The call over the budget -/

section Exceeding

variable {modified rest : List String} {path : String}

/-- The first call over the budget is for a new path, and the modified files were the maximum. -/
theorem exceeding (hle : modified.length ≤ policy.maxModifiedFiles)
    (hlt : policy.maxModifiedFiles < (advance host policy fixed modified path).length) :
    passes host policy fixed path = true ∧ resolvedPath host fixed path ∉ modified ∧
      modified.length = policy.maxModifiedFiles := by
  have hpasses : passes host policy fixed path = true := by
    by_contra hnot
    rw [advance_of_not (eq_false_of_ne_true hnot)] at hlt
    exact absurd hle (Nat.not_le.mpr hlt)
  rw [advance_of_passes hpasses] at hlt
  have hnew : resolvedPath host fixed path ∉ modified := by
    intro hmem
    rw [List.insert_of_mem hmem] at hlt
    exact absurd hle (Nat.not_le.mpr hlt)
  rw [List.length_insert_of_not_mem hnew] at hlt
  exact ⟨hpasses, hnew, Nat.le_antisymm hle (Nat.le_of_lt_succ hlt)⟩

/-- Requests for the one path over the budget leave the answers as they are, texts included. -/
theorem leaves_of_same (hle : modified.length ≤ policy.maxModifiedFiles)
    (hlt : policy.maxModifiedFiles < (advance host policy fixed modified path).length)
    (hsame : ∀ later ∈ rest, passes host policy fixed later = true →
      resolvedPath host fixed later = resolvedPath host fixed path) :
    Leaves host policy fixed id (path :: rest) modified modified := by
  obtain ⟨hpasses, hnew, hlength⟩ := exceeding hle hlt
  set beyond := modified.insert (resolvedPath host fixed path) with hbeyond
  have hsame : ∀ later ∈ path :: rest, passes host policy fixed later = true →
      resolvedPath host fixed later = resolvedPath host fixed path :=
    List.forall_mem_cons.mpr ⟨fun _ => rfl, hsame⟩
  have hcases : ∀ later ∈ path :: rest, passes host policy fixed later = true →
      ∀ m, m = modified ∨ m = beyond → advance host policy fixed m later = beyond := by
    intro later hlater hpasses m hm
    rw [advance_of_passes hpasses, hsame later hlater hpasses]
    rcases hm with rfl | rfl
    · rfl
    · exact List.insert_of_mem List.mem_insert_self
  have hsize : policy.maxModifiedFiles < beyond.length := by
    rw [hbeyond, ← advance_of_passes hpasses]
    exact hlt
  refine leaves_of_settled (C := fun m => m = modified ∨ m = beyond) ?_ ?_ (.inl rfl) (.inl rfl)
  · intro later hlater m hm
    cases h : passes host policy fixed later with
    | true => exact .inr (hcases later hlater h m hm)
    | false =>
      rw [advance_of_not h]
      exact hm
  · intro later hlater m m' hm hm'
    cases h : passes host policy fixed later with
    | true =>
      have hm := hcases later hlater h m hm
      have hm' := hcases later hlater h m' hm'
      rw [writeAnswer_over h (by rw [hm]; exact hsize), writeAnswer_over h (by rw [hm']; exact hsize),
        hm, hm']
    | false =>
      obtain ⟨error, herror⟩ := @writeAnswer_refused host policy fixed later h
      rw [herror, herror]

/-- Requests for new paths over the budget are refused with or without one another. -/
theorem leaves_of_new (hnodup : modified.Nodup) (hle : modified.length ≤ policy.maxModifiedFiles)
    (hlt : policy.maxModifiedFiles < (advance host policy fixed modified path).length)
    (hnew : ∀ later ∈ rest, passes host policy fixed later = true →
      resolvedPath host fixed later ∉ modified) :
    Leaves host policy fixed Except.toOption (path :: rest) modified modified := by
  obtain ⟨hpasses, hfresh, hlength⟩ := exceeding hle hlt
  have hnew : ∀ later ∈ path :: rest, passes host policy fixed later = true →
      resolvedPath host fixed later ∉ modified := List.forall_mem_cons.mpr ⟨fun _ => hfresh, hnew⟩
  refine leaves_of_settled (C := fun m => modified ⊆ m) ?_ ?_ (fun _ h => h) fun _ h => h
  · intro later hlater m hm
    exact fun r hr => subset_advance (hm hr)
  · -- the modified files and the new path are more than the maximum
    have hrefused : ∀ later ∈ path :: rest, ∀ m, modified ⊆ m →
        (writeAnswer host policy fixed later m).1.toOption = none := by
      intro later hlater m hm
      cases h : passes host policy fixed later with
      | true =>
        have hmore : resolvedPath host fixed later :: modified ⊆
            advance host policy fixed m later := by
          rw [advance_of_passes h]
          exact List.cons_subset.mpr
            ⟨List.mem_insert_self, fun r hr => List.mem_insert_of_mem (hm hr)⟩
        have hcount := (List.subperm_of_subset
          (List.nodup_cons.mpr ⟨hnew later hlater h, hnodup⟩) hmore).length_le
        rw [List.length_cons, hlength] at hcount
        rw [writeAnswer_over h hcount]
        rfl
      | false =>
        obtain ⟨error, herror⟩ := @writeAnswer_refused host policy fixed later h
        rw [herror]
        rfl
    intro later hlater m m' hm hm'
    rw [hrefused later hlater m hm, hrefused later hlater m' hm']

/-- A later request for another new path shows that the call over the budget was made: the texts of
its two answers tell different numbers of modified files, or one of them is no refusal. -/
theorem same_of_leaves (hle : modified.length ≤ policy.maxModifiedFiles)
    (hlt : policy.maxModifiedFiles < (advance host policy fixed modified path).length)
    (hleaves : Leaves host policy fixed id (path :: rest) modified modified) :
    ∀ later ∈ rest, passes host policy fixed later = true →
      resolvedPath host fixed later = resolvedPath host fixed path := by
  obtain ⟨hpasses, hnew, hlength⟩ := exceeding hle hlt
  set r := resolvedPath host fixed path with hr
  let other : String × WriteAnswer → Bool := fun call => resolvedPath host fixed call.1 ≠ r
  have hadvance : advance host policy fixed modified path = modified.insert r :=
    advance_of_passes hpasses
  have hpassing : ∀ p, resolvedPath host fixed p = r → passes host policy fixed p = true := by
    intro p hp
    rw [passes, hp]
    exact hpasses
  -- all requests for the path are left out
  have hwithout := hleaves _ (withoutRefused_filter (p := other)
    fun call hcall _ => refused_of_advance hlt hcall)
  have hfilter : (session host policy fixed (path :: rest) modified).filter other =
      (session host policy fixed rest (modified.insert r)).filter other := by
    rw [session_cons, List.filter_cons_of_neg (by simp [other, hr]), hadvance]
  rw [hfilter] at hwithout
  -- up to the first other request the answers are the same, and it tells
  clear hfilter hleaves
  intro later hlater hlaterPasses
  by_contra hother
  induction rest with
  | nil => exact List.not_mem_nil hlater
  | cons next rest ih =>
    rw [session_cons] at hwithout
    by_cases hnext : resolvedPath host fixed next = r
    · have hstay : advance host policy fixed (modified.insert r) next = modified.insert r := by
        rw [advance_of_passes (hpassing next hnext), hnext]
        exact List.insert_of_mem List.mem_insert_self
      rw [List.filter_cons_of_neg (by simp [other, hnext]), hstay] at hwithout
      rcases List.mem_cons.mp hlater with rfl | hlater
      · exact hother hnext
      · exact ih hwithout hlater
    · rw [List.filter_cons_of_pos (by simp [other, hnext]), List.map_cons, session_cons,
        List.map_cons, List.map_cons] at hwithout
      obtain ⟨hanswer, hwithout⟩ := List.cons.inj hwithout
      cases h : passes host policy fixed next with
      | false =>
        rw [advance_of_not h, advance_of_not h] at hwithout
        rcases List.mem_cons.mp hlater with rfl | hlater
        · cases hlaterPasses.symm.trans h
        · exact ih hwithout hlater
      | true =>
        have hlonger : (advance host policy fixed (modified.insert r) next).length =
            (advance host policy fixed modified next).length + 1 := by
          rw [advance_of_passes h, advance_of_passes h]
          by_cases hmem : resolvedPath host fixed next ∈ modified
          · rw [List.insert_of_mem hmem, List.insert_of_mem (List.mem_insert_of_mem hmem),
              List.length_insert_of_not_mem hnew]
          · have hmem' : resolvedPath host fixed next ∉ modified.insert r := by
              rw [List.mem_insert_iff]
              exact not_or.mpr ⟨hnext, hmem⟩
            rw [List.length_insert_of_not_mem hmem, List.length_insert_of_not_mem hmem',
              List.length_insert_of_not_mem hnew]
        have hgrown : modified.length ≤ (advance host policy fixed modified next).length :=
          length_le_modifiedAfter modified [next]
        have hover : policy.maxModifiedFiles <
            (advance host policy fixed (modified.insert r) next).length := by
          omega
        rw [writeAnswer_over h hover] at hanswer
        rcases Nat.lt_or_ge policy.maxModifiedFiles
          (advance host policy fixed modified next).length with hlt' | hge'
        · rw [writeAnswer_over h hlt'] at hanswer
          have hsizes := budgetError_injective (Except.error.inj hanswer)
          omega
        · rw [writeAnswer_accepted h hge'] at hanswer
          cases hanswer

end Exceeding

end Budget

end LocalToolSet

end AiOrchestrator
