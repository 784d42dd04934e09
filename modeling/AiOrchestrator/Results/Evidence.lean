import AiOrchestrator.Core.Evidence

/-!
# Evidence

What the checksums of run steps show. A chain that verifies no longer does when the evidence of
an entry or its checksum is changed, or entries between others are left out; it still does when
other fields are changed or entries at its ends are left out (`tamper_evident`).
-/

namespace AiOrchestrator

/-! ### Tampering -/

/-- Two entries with their time stamps swapped. -/
def swapTimes (steps : List RunStepLogEntry) (i j : Nat) (first second : RunStepLogEntry) :
    List RunStepLogEntry :=
  (steps.set i { first with createdAt := second.createdAt }).set j
    { second with createdAt := first.createdAt }

/-- **Tamper evidence**: a verified chain is no longer verified when the evidence of an entry is
changed and its checksum kept, or the other way round, when time stamps that differ are swapped,
and when entries are left out, unless those at its ends only. Changes beyond the evidence are not
seen. -/
theorem tamper_evident {host : Host} (hsha : Function.Injective host.sha256Hex)
    (hpresent : ∀ text, host.sha256Hex text ≠ "") [Std.TransCmp host.localeCompare]
    {inputs : List AppendRunStepEvidenceInput} {chain : List RunStepLogEntry}
    (hchain : chain = appendedChain host none inputs)
    (hverify : verifyRunStepEvidenceChain host chain = []) :
    (∀ i (hi : i < chain.length) (changed : RunStepLogEntry),
      (changed.checksum = chain[i].checksum ↔ changed.evidence ≠ chain[i].evidence) →
        verifyRunStepEvidenceChain host (chain.set i changed) ≠ []) ∧
    (∀ i (hi : i < chain.length) (changed : RunStepLogEntry),
      changed.evidence = chain[i].evidence → changed.checksum = chain[i].checksum →
        verifyRunStepEvidenceChain host (chain.set i changed) = []) ∧
    (∀ kept : List RunStepLogEntry, kept.Sublist chain →
      (verifyRunStepEvidenceChain host kept = [] ↔ kept <:+: chain)) ∧
    (∀ i j (hi : i < chain.length) (hj : j < chain.length),
      chain[i].createdAt ≠ chain[j].createdAt →
        verifyRunStepEvidenceChain host (swapTimes chain i j chain[i] chain[j]) ≠ []) := by
  have hchained : Chained host chain := hchain ▸ chained_appendedChain hpresent inputs
  refine ⟨fun i hi changed hchanged => ?_, fun i hi changed hevidence hchecksum => ?_,
    fun kept hkept => ?_, fun i j hi hj hne => ?_⟩
  · have hsealed := hchained.sealed _ (List.getElem_mem hi)
    exact verify_ne_nil_of_mem hpresent (List.mem_set hi changed)
      (not_sealed_of_changed hsha hsealed hchanged)
  · exact hchained.verify_set hsha hpresent hverify hi ⟨hevidence, hchecksum⟩
  · exact hchained.verify_sublist_iff hsha hpresent hverify hkept
  · have hsealed := hchained.sealed _ (List.getElem_mem hj)
    refine verify_ne_nil_of_mem hpresent (List.mem_set (by simpa using hj) _)
      (not_sealed_of_changed hsha hsealed ?_)
    refine iff_of_true rfl fun heq => hne ?_
    exact congrArg RunStepEvidence.createdAt heq

/-- A hash with the given digests, and otherwise the text itself behind a mark. -/
def tableHash (table : List (String × String)) (text : String) : String :=
  match table.find? fun row => row.1 = text with
  | some row => row.2
  | none => "#" ++ text

theorem tableHash_cases (table : List (String × String)) (text : String) :
    (∃ row ∈ table, row.1 = text ∧ tableHash table text = row.2) ∨
      tableHash table text = "#" ++ text := by
  unfold tableHash
  cases hfind : table.find? fun row => row.1 = text with
  | none => exact .inr rfl
  | some row =>
    have htext := List.find?_some hfind
    exact .inl ⟨row, List.mem_of_find?_eq_some hfind, of_decide_eq_true htext, rfl⟩

/-- A table with different digests that have no mark gives an injective hash. -/
theorem tableHash_injective {table : List (String × String)}
    (hdigests : (table.map Prod.snd).Nodup) (hmarks : ∀ row ∈ table, row.2.toList.head? ≠ some '#') :
    Function.Injective (tableHash table) := by
  have hunmarked : ∀ row ∈ table, ∀ text : String, row.2 ≠ "#" ++ text := by
    intro row hrow text heq
    refine hmarks row hrow ?_
    rw [heq, String.toList_append]
    rfl
  intro first second heq
  rcases tableHash_cases table first with ⟨row, hrow, rfl, hfirst⟩ | hfirst
  · rcases tableHash_cases table second with ⟨other, hother, rfl, hsecond⟩ | hsecond
    · exact congrArg Prod.fst (List.inj_on_of_nodup_map hdigests hrow hother
        (hfirst.symm.trans (heq.trans hsecond)))
    · exact absurd (hfirst.symm.trans (heq.trans hsecond)) (hunmarked row hrow second)
  · rcases tableHash_cases table second with ⟨other, hother, rfl, hsecond⟩ | hsecond
    · exact absurd (hsecond.symm.trans (heq.symm.trans hfirst)) (hunmarked other hother first)
    · have htexts := congrArg String.toList (hfirst.symm.trans (heq.trans hsecond))
      rw [String.toList_append, String.toList_append] at htexts
      exact String.toList_inj.mp (List.append_cancel_left htexts)

/-- The step of a coder, the `n`-th of a run. -/
def sampleInput (n : String) : AppendRunStepEvidenceInput where
  evidenceId := "E-" ++ n
  tenantId := "org"
  projectId := "project"
  runId := "R-1"
  stepId := "S-" ++ n
  attempt := 0
  taskId := some "T-1"
  role := "coder"
  tool := none
  input := "Read the input"
  output := "The grammar is read"
  status := .succeeded
  policyDecisionId := none
  idempotencyKey := "R-1:S-" ++ n ++ ":0"
  payloadRef := none
  traceId := "R-1"
  durationMs := 5
  createdAt := "2024-01-01T00:00:0" ++ n ++ ".000Z"

/-- The text whose digest seals the step. -/
def sampleText (n : String) (prevChecksum : Option String) : String :=
  Json.canonical toString (fun a b => a ≤ b)
    (.obj (evidencePayload (appendedEntry ⟨id, compare, fun _ => "", fun _ _ => 0⟩ prevChecksum
      (sampleInput n))))

/-- The SHA-256 digests of three steps. -/
def sampleDigests : List (String × String) :=
  let first := "fd0313dd4c652e23cce9c5994ea1ca62ab61417d518e5ce327341a5f8342dfea"
  let second := "8e6324839325a88012e29d1324d8efa21cc462ddcd42afd9ccf88f7b44834c47"
  let third := "9e99722774cf224b576949b3a6b754204e326d28e2f83b4ddeb86d2d852e288e"
  [(sampleText "1" none, first), (sampleText "2" (some first), second),
    (sampleText "3" (some second), third)]

/-- A platform with these digests. -/
def digestHost : Host where
  sha256Hex := tableHash sampleDigests
  localeCompare := compare
  stringify := fun _ => "null"
  tokenCost := fun _ _ => 0

instance : Std.TransCmp digestHost.localeCompare :=
  inferInstanceAs (Std.TransCmp (compare : String → String → Ordering))

theorem digestHost_injective : Function.Injective digestHost.sha256Hex :=
  tableHash_injective (by decide) (by decide +kernel)

theorem digestHost_present (text : String) : digestHost.sha256Hex text ≠ "" := by
  have hdigests : ∀ row ∈ sampleDigests, row.2 ≠ "" := by decide
  rcases tableHash_cases sampleDigests text with ⟨row, hrow, -, h⟩ | h
  · exact fun heq => hdigests row hrow (h.symm.trans heq)
  · exact fun heq => absurd (congrArg String.toList (h.symm.trans heq)) (by simp)

/-- The chain of three steps. -/
def sampleChain : List RunStepLogEntry :=
  appendedChain digestHost none [sampleInput "1", sampleInput "2", sampleInput "3"]

theorem sampleChain_chained : Chained digestHost sampleChain :=
  chained_appendedChain digestHost_present _

theorem sampleChain_verifies : verifyRunStepEvidenceChain digestHost sampleChain = [] := by
  have htimes : (sampleChain.map RunStepLogEntry.createdAt).Pairwise
      fun a b => compare a b ≠ .gt := by
    show ["2024-01-01T00:00:0" ++ "1" ++ ".000Z", "2024-01-01T00:00:0" ++ "2" ++ ".000Z",
      "2024-01-01T00:00:0" ++ "3" ++ ".000Z"].Pairwise _
    decide
  have hsorted : sampleChain.Pairwise (NotAfter digestHost) :=
    (List.pairwise_map (f := RunStepLogEntry.createdAt)).mp htimes
  exact sampleChain_chained.verify_of_inTimeOrder digestHost_present hsorted.insertionSort_eq

/-- A changed status is in the evidence. -/
theorem changed_status {step : RunStepLogEntry} {status : RunStepStatus} (h : step.status ≠ status) :
    { step with status := status }.checksum = step.checksum ↔
      { step with status := status }.evidence ≠ step.evidence :=
  iff_of_true rfl fun heq => h (congrArg RunStepEvidence.status heq).symm

/-- The chain of three steps: a changed status and a missing second step are found, a missing third
step is not. -/
theorem tamper_evident_steps :
    verifyRunStepEvidenceChain digestHost
        (sampleChain.set 1 { sampleChain[1] with status := .failed }) ≠ [] ∧
      verifyRunStepEvidenceChain digestHost (sampleChain.eraseIdx 1) ≠ [] ∧
      verifyRunStepEvidenceChain digestHost (sampleChain.take 2) = [] := by
  obtain ⟨hchanged, -, hdeleted, -⟩ :=
    tamper_evident digestHost_injective digestHost_present rfl sampleChain_verifies
  refine ⟨?_, ?_, ?_⟩
  · exact hchanged 1 (by decide) _ (changed_status (by decide))
  · intro hverify
    have hinfix := ((hdeleted _ (List.eraseIdx_sublist _ _)).mp hverify).map RunStepLogEntry.id
    have hids : ¬ ["E-" ++ "1", "E-" ++ "3"] <:+: ["E-" ++ "1", "E-" ++ "2", "E-" ++ "3"] := by
      decide
    exact hids hinfix
  · exact (hdeleted _ (List.take_sublist _ _)).mpr (List.take_prefix _ _).isInfix

/-- The output is beyond the evidence. -/
theorem sameEvidence_output (step : RunStepLogEntry) (output : String) :
    SameEvidence { step with output := output } step := ⟨rfl, rfl⟩

/-- A changed output and a missing last step are not found. -/
theorem tampered_output_verifies :
    verifyRunStepEvidenceChain digestHost sampleChain = [] ∧
      sampleChain[0].output ≠ "Nothing" ∧
      verifyRunStepEvidenceChain digestHost
        (sampleChain.set 0 { sampleChain[0] with output := "Nothing" }) = [] ∧
      verifyRunStepEvidenceChain digestHost (sampleChain.take 2) = [] := by
  refine ⟨sampleChain_verifies, by decide, ?_, ?_⟩
  · exact sampleChain_chained.verify_set digestHost_injective digestHost_present
      sampleChain_verifies (by decide) (sameEvidence_output _ _)
  · exact (sampleChain_chained.verify_sublist_iff digestHost_injective digestHost_present
      sampleChain_verifies (List.take_sublist _ _)).mpr (List.take_prefix _ _).isInfix

end AiOrchestrator
