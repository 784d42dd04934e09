import AiOrchestrator.State.DedupRegistry

/-!
# Two owners of a side effect

What the dedup registry promises to owners that reserve the same keys, over sequences of calls of
the guard and the port.
-/

namespace AiOrchestrator

/-- **The law of the registry**: from any registry and over all calls in the order of time, no
key is reserved twice before the earlier entry has failed or expired exactly where no reservation
falls into the fraction of a millisecond by which a written deadline is early; and a finalization on
behalf of an owner who was overtaken leaves the newer owner's entry exactly where each such call
names its owner to the port, or finds the entry with the status, time and ids that it gives. Of the
platform's `Date.parse` it is assumed that it reads what `toISOString` writes. -/
theorem dedup_iff {dateParse : String → Option Int} (hparse : Text.ReadsIsoStrings dateParse)
    (start : Record DedupRegistryRecord) (calls : List DedupCall) (h : TimedCalls dateParse calls) :
    ReservedOnce dateParse (dedupRun dateParse start calls).2 ∧
        LateHarmless dateParse (dedupRun dateParse start calls).2 ↔
      CutsUnused dateParse (dedupRun dateParse start calls).2 ∧
        ∀ later e earlier owner command,
          (dedupRun dateParse start calls).2 = later ++ e :: earlier →
          e.call.finalization? = some (owner, command) →
          Overtaken dateParse owner command.key earlier →
            e.call.namesOwner = true ∨ command.Idle e.before := by
  -- At each late finalization the entry is another owner's, so that `late_iff` applies.
  have hlate : ∀ later e earlier owner command,
      (dedupRun dateParse start calls).2 = later ++ e :: earlier →
      e.call.finalization? = some (owner, command) →
      Overtaken dateParse owner command.key earlier →
        ((e.call.apply dateParse e.before).1.get? command.key = e.before.get? command.key ↔
          e.call.namesOwner = true ∨ command.Idle e.before) := by
    intro later e earlier owner command hsplit hcall hovertaken
    obtain ⟨callsLater, callsEarlier, -, hrun, -⟩ := dedupRun_split hsplit
    have hentry : Overtaken dateParse owner command.key (dedupRun dateParse start callsEarlier).2 := by
      rw [hrun]
      exact hovertaken
    obtain ⟨current, hcurrent, hother⟩ := hentry.entry hparse
    rw [hrun] at hcurrent
    exact late_iff hcall hcurrent hother
  refine and_congr (reservedOnce_iff hparse h) ?_
  constructor
  · intro hharmless later e earlier owner command hsplit hcall hovertaken
    exact (hlate later e earlier owner command hsplit hcall hovertaken).mp
      (hharmless later e earlier owner command hsplit hcall hovertaken)
  · intro hnamed later e earlier owner command hsplit hcall hovertaken
    exact (hlate later e earlier owner command hsplit hcall hovertaken).mpr
      (hnamed later e earlier owner command hsplit hcall hovertaken)

/-- A reservation for one second. -/
def secondOf (owner nowIso : String) : DedupReserveCommand :=
  { key := "k", leaseOwner := owner, nowIso, ttlMs := 1000 }

/-- The side effect has failed. -/
def failedAt (nowIso : String) : DedupFinalizeCommand :=
  { key := "k", nowIso, status := .failed, policyDecisionId := none, evidenceId := none }

/-- One owner reserves a key, a second one takes it over a second later, and then the first one
finalizes it. The newest call comes first. -/
def overtakenCalls (finalization : DedupCall) : List DedupCall :=
  [finalization, .reserveSideEffect (secondOf "b" "2026-01-01T00:00:01.000Z"),
    .reserveSideEffect (secondOf "a" "2026-01-01T00:00:00.000Z")]

/-- The times of these calls. -/
theorem overtakenCalls_timed {finalization : DedupCall}
    (hiso : finalization.nowIso = "2026-01-01T00:00:02.000Z") :
    TimedCalls Text.dateParse (overtakenCalls finalization) := by
  have hfirst : Text.dateParse "2026-01-01T00:00:00.000Z" = some 1767225600000 := by decide
  have hsecond : Text.dateParse "2026-01-01T00:00:01.000Z" = some 1767225601000 := by decide
  have hthird : Text.dateParse finalization.nowIso = some 1767225602000 := by
    rw [hiso]
    decide
  have hle : ∀ {later earlier : DedupCall} {t t' : Int},
      Text.dateParse later.nowIso = some t → Text.dateParse earlier.nowIso = some t' → t' ≤ t →
      ∀ now before, Text.dateParse later.nowIso = some now →
        Text.dateParse earlier.nowIso = some before → before ≤ now := by
    intro later earlier t t' ht ht' hle now before hnow hbefore
    rw [ht] at hnow
    rw [ht'] at hbefore
    rw [← Option.some.inj hnow, ← Option.some.inj hbefore]
    exact hle
  unfold TimedCalls
  simp only [overtakenCalls, List.pairwise_cons, List.mem_cons, List.not_mem_nil, or_false]
  refine ⟨?_, ?_, fun _ h => h.elim, .nil⟩
  · rintro call (rfl | rfl)
    · exact hle hthird hsecond (by decide)
    · exact hle hthird hfirst (by decide)
  · rintro call rfl
    exact hle hsecond hfirst (by decide)

/-- The first owner's finalization, which names it to the port. -/
def namedFinalization : DedupCall :=
  .finalize "a" (failedAt "2026-01-01T00:00:02.000Z") (some "a")

/-- Named to the port, the late finalization does nothing; and the second reservation is made when
the time to live of the first one is over. -/
theorem dedup_iff_named :
    ReservedOnce Text.dateParse
        (dedupRun Text.dateParse ∅ (overtakenCalls namedFinalization)).2 ∧
      LateHarmless Text.dateParse
        (dedupRun Text.dateParse ∅ (overtakenCalls namedFinalization)).2 := by
  refine (dedup_iff Text.readsIsoStrings_dateParse ∅ _ (overtakenCalls_timed rfl)).mpr ⟨?_, ?_⟩
  · refine cutsUnused_of_whole fun call hcall command hcommand => ⟨1000, ?_⟩
    simp only [overtakenCalls, List.mem_cons, List.not_mem_nil, or_false] at hcall
    rcases hcall with rfl | rfl | rfl
    · cases hcommand
    · rw [← Option.some.inj hcommand]
      rfl
    · rw [← Option.some.inj hcommand]
      rfl
  · intro later e earlier owner command hsplit hcall _
    obtain ⟨callsLater, callsEarlier, hcalls, -, -⟩ := dedupRun_split hsplit
    have hmem : e.call ∈ overtakenCalls namedFinalization := by
      rw [hcalls]
      exact List.mem_append_right callsLater List.mem_cons_self
    simp only [overtakenCalls, List.mem_cons, List.not_mem_nil, or_false] at hmem
    rcases hmem with heq | heq | heq
    · exact Or.inl (by rw [heq]; decide)
    · rw [heq] at hcall
      cases hcall
    · rw [heq] at hcall
      cases hcall

/-- The first owner's finalization through the guard. -/
def guardFinalization : DedupCall :=
  .completeSideEffect "a" (failedAt "2026-01-01T00:00:02.000Z")

/-- A reservation for half a millisecond. -/
def halfMillisecondOf (owner : String) : DedupReserveCommand :=
  { key := "k", leaseOwner := owner, nowIso := "2026-01-01T00:00:00.000Z", ttlMs := 1 / 2 }

/-- Two owners reserve a key at one time. -/
def halfMillisecondCalls : List DedupCall :=
  [.reserveSideEffect (halfMillisecondOf "b"), .reserveSideEffect (halfMillisecondOf "a")]

/-- **A late finalization through the guard**: the entry of the second owner, which is pending for
another second, becomes a failed one, so that a third owner could reserve the key at once. **And a
fraction of a millisecond** is lost in the deadline: two owners hold one key. -/
theorem late_finalization :
    ¬ (ReservedOnce Text.dateParse
          (dedupRun Text.dateParse ∅ (overtakenCalls guardFinalization)).2 ∧
        LateHarmless Text.dateParse
          (dedupRun Text.dateParse ∅ (overtakenCalls guardFinalization)).2) ∧
      ¬ ReservedOnce Text.dateParse (dedupRun Text.dateParse ∅ halfMillisecondCalls).2 := by
  constructor
  -- Owner a reserves for a second, b reserves once it is over, and a's finalization through the
  -- guard still takes effect.
  · rintro ⟨-, hharmless⟩
    have hreservedA : (DedupCall.apply Text.dateParse (dedupRun Text.dateParse ∅ []).1
        (.reserveSideEffect (secondOf "a" "2026-01-01T00:00:00.000Z"))).2 =
        some (secondOf "a" "2026-01-01T00:00:00.000Z") := by decide +kernel
    have hreservedB : (DedupCall.apply Text.dateParse (dedupRun Text.dateParse ∅ [.reserveSideEffect
        (secondOf "a" "2026-01-01T00:00:00.000Z")]).1
        (.reserveSideEffect (secondOf "b" "2026-01-01T00:00:01.000Z"))).2 =
        some (secondOf "b" "2026-01-01T00:00:01.000Z") := by decide +kernel
    have helapsed : (1767225600000 : Int) + (1000 : ℚ) ≤ (1767225601000 : Int) := by norm_num
    have hovertaken : Overtaken Text.dateParse "a" "k"
        (dedupRun Text.dateParse ∅ (overtakenCalls guardFinalization).tail).2 :=
      ⟨[], _, [], _, [], _, _, rfl, hreservedA, rfl, rfl, hreservedB, rfl, by decide,
        ⟨1767225600000, 1767225601000, by decide, by decide, helapsed⟩,
        fun e he => absurd he List.not_mem_nil⟩
    have hkept := hharmless [] _ _ "a" (failedAt "2026-01-01T00:00:02.000Z") rfl rfl hovertaken
    revert hkept
    decide +kernel
  -- Half a millisecond is cut off the expiry: the entry is expired at the instant it is made, with
  -- half a millisecond of its time left.
  · intro honce
    have hreservedA : (DedupCall.apply Text.dateParse (dedupRun Text.dateParse ∅ []).1
        (.reserveSideEffect (halfMillisecondOf "a"))).2 = some (halfMillisecondOf "a") := by
      decide +kernel
    have hreservedB : (DedupCall.apply Text.dateParse (dedupRun Text.dateParse ∅
        [.reserveSideEffect (halfMillisecondOf "a")]).1
        (.reserveSideEffect (halfMillisecondOf "b"))).2 = some (halfMillisecondOf "b") := by
      decide +kernel
    rcases honce [] _ [] _ [] _ _ rfl hreservedA hreservedB rfl with hfailed | helapsed
    · obtain ⟨later, e, earlier, hnil, -⟩ := hfailed
      exact List.append_ne_nil_of_right_ne_nil later (List.cons_ne_nil e earlier) hnil.symm
    · obtain ⟨now, at', hnow, hat, hle⟩ := helapsed
      obtain rfl := Option.some.inj (hnow.symm.trans hat)
      have hhalf : (now : ℚ) < now + 1 / 2 := lt_add_of_pos_right _ (by norm_num)
      exact absurd hle (not_le_of_gt hhalf)

end AiOrchestrator
