import AiOrchestrator.Core.IdempotencyKeys
import AiOrchestrator.Results.Scheduling

/-!
# Idempotency keys separate and identify

`buildIdempotencyKey_eq_iff`: two accepted inputs have one key exactly if they agree in their trimmed
parts and their attempt, and their inputs are the same JSON value up to the order of properties. SHA-256
is a parameter of which it is assumed that it is injective and answers hexadecimal digits.
-/

namespace AiOrchestrator

open IdempotencyKeys

/-- The digits of `digest('hex')`. -/
def isHexDigit (c : Char) : Bool := c.isDigit || ('a' ≤ c && c ≤ 'f')

/-- **Idempotency keys** separate and identify. -/
theorem buildIdempotencyKey_eq_iff (host : Host) [Std.TransCmp host.localeCompare]
    [Std.LawfulEqCmp host.localeCompare] (hsha : Function.Injective host.sha256Hex)
    (hhex : ∀ text, ∀ c ∈ (host.sha256Hex text).toList, isHexDigit c = true)
    {a b : BuildIdempotencyKeyInput} {key key' : String}
    (ha : IdempotencyKeys.buildIdempotencyKey host a = .ok key)
    (hb : IdempotencyKeys.buildIdempotencyKey host b = .ok key') :
    key = key' ↔
      (Text.trim a.tenantId = Text.trim b.tenantId ∧ Text.trim a.projectId = Text.trim b.projectId ∧
        Text.trim a.runId = Text.trim b.runId ∧ Text.trim a.taskId = Text.trim b.taskId ∧
        Text.trim a.stage = Text.trim b.stage ∧
        Text.trim a.sideEffectType = Text.trim b.sideEffectType ∧ a.attempt = b.attempt) ∧
      a.normalizedInput.Same b.normalizedInput := by
  obtain ⟨haccepted, rfl⟩ := buildIdempotencyKey_eq_ok_iff.mp ha
  obtain ⟨haccepted', rfl⟩ := buildIdempotencyKey_eq_ok_iff.mp hb
  refine key_eq_iff hsha (fun text hmem => ?_) haccepted haccepted'
  exact absurd (hhex text '-' hmem) (by decide)

/-! ### A platform -/

/-- A text in zeros and ones. -/
def spelled (text : String) : List Char :=
  Segments.joined '0' (text.toList.map fun c => List.replicate c.toNat '1') []

theorem spelled_injective : Function.Injective spelled := by
  intro text text' h
  have hzero : ∀ text : String, ∀ s ∈ text.toList.map fun c => List.replicate c.toNat '1', '0' ∉ s := by
    intro text s hs hmem
    obtain ⟨c, -, rfl⟩ := List.mem_map.mp hs
    exact absurd (List.eq_of_mem_replicate hmem) (by decide)
  have hsplit := congrArg (List.splitOn '0') h
  rw [spelled, spelled, Segments.splitOn_joined (hzero text) List.not_mem_nil,
    Segments.splitOn_joined (hzero text') List.not_mem_nil] at hsplit
  have hlengths := congrArg (List.map List.length) (List.append_cancel_right hsplit)
  rw [List.map_map, List.map_map] at hlengths
  have hchars : Function.Injective (List.length ∘ fun c : Char => List.replicate c.toNat '1') := by
    intro c d hcd
    have hnat : c.toNat = d.toNat := by simpa using hcd
    rw [← Char.ofNat_toNat c, ← Char.ofNat_toNat d, hnat]
  exact String.toList_inj.mp (hchars.list_map hlengths)

/-- The digits of a spelled text. -/
theorem digit_of_mem_spelled {text : String} {c : Char} (h : c ∈ spelled text) : c = '0' ∨ c = '1' := by
  unfold spelled at h
  generalize text.toList = chars at h
  induction chars with
  | nil => cases h
  | cons d chars ih =>
    rw [List.map_cons, Segments.joined_cons] at h
    rcases List.mem_append.mp h with h | h
    · exact Or.inr (List.eq_of_mem_replicate h)
    · rcases List.mem_cons.mp h with rfl | h
      · exact Or.inl rfl
      · exact ih h

/-- The text that is hashed in the sample. -/
def sampleCanonical : String := "\x7b\"mode\":\"write\",\"path\":\"src/a.ts\"\x7d"

/-- A platform with the digest of the text. -/
def hexHost : Host where
  sha256Hex := fun text =>
    if text = sampleCanonical then "91b72628cad911d9272295672ea2c04f2b9180bb4120779b98d0d4868f568bea"
    else String.ofList (spelled text)
  localeCompare := compare
  stringify := fun _ => "null"
  tokenCost := fun _ _ => 0

instance : Std.TransCmp hexHost.localeCompare :=
  inferInstanceAs (Std.TransCmp (compare : String → String → Ordering))

instance : Std.LawfulEqCmp hexHost.localeCompare :=
  inferInstanceAs (Std.LawfulEqCmp (compare : String → String → Ordering))

theorem hexHost_hex (text : String) : ∀ c ∈ (hexHost.sha256Hex text).toList, isHexDigit c = true := by
  intro c hc
  have hvalue : hexHost.sha256Hex text = if text = sampleCanonical then
      "91b72628cad911d9272295672ea2c04f2b9180bb4120779b98d0d4868f568bea"
    else String.ofList (spelled text) := rfl
  rw [hvalue] at hc
  split_ifs at hc with htext
  · have hall : "91b72628cad911d9272295672ea2c04f2b9180bb4120779b98d0d4868f568bea".toList.all isHexDigit =
        true := rfl
    exact List.all_eq_true.mp hall c hc
  · rw [String.toList_ofList] at hc
    rcases digit_of_mem_spelled hc with rfl | rfl <;> rfl

theorem hexHost_injective : Function.Injective hexHost.sha256Hex := by
  have hdigest : ∀ text, "91b72628cad911d9272295672ea2c04f2b9180bb4120779b98d0d4868f568bea" ≠
      String.ofList (spelled text) := by
    intro text h
    have hmem : '9' ∈ spelled text := by
      rw [← @String.toList_ofList (spelled text), ← h]
      decide
    rcases digit_of_mem_spelled hmem with h | h <;> exact absurd h (by decide)
  intro text text' h
  have hvalue : ∀ text, hexHost.sha256Hex text = if text = sampleCanonical then
      "91b72628cad911d9272295672ea2c04f2b9180bb4120779b98d0d4868f568bea"
    else String.ofList (spelled text) := fun _ => rfl
  rw [hvalue, hvalue] at h
  split_ifs at h with htext htext' htext'
  · rw [htext, htext']
  · exact absurd h (hdigest text')
  · exact absurd h.symm (hdigest text)
  · exact spelled_injective (String.ofList_injective h)

/-- A write of the coder. -/
def sampleKeyInput (tenantId : String) (normalizedInput : Json Decimal)
    (distinct : normalizedInput.Distinct) : BuildIdempotencyKeyInput where
  tenantId := tenantId
  projectId := "P-1"
  runId := "run-1"
  taskId := "T-1"
  stage := "commit"
  attempt := .finite (Decimal.ofNat 1)
  sideEffectType := "git-commit"
  normalizedInput := normalizedInput
  distinct := distinct

theorem sampleKeyInput_accepted {tenantId : String} (h : KeyPartOk tenantId)
    (normalizedInput : Json Decimal) (distinct : normalizedInput.Distinct) :
    Accepted (sampleKeyInput tenantId normalizedInput distinct) := by
  have hattempt : AttemptOk (.finite (Decimal.ofNat 1)) := ⟨by decide +kernel, by decide +kernel⟩
  exact ⟨hattempt, h, show KeyPartOk "P-1" by decide, show KeyPartOk "run-1" by decide,
    show KeyPartOk "T-1" by decide, show KeyPartOk "commit" by decide,
    show KeyPartOk "git-commit" by decide⟩

/-- The write with its path first. -/
def pathFirst : BuildIdempotencyKeyInput :=
  sampleKeyInput "default-org" (.obj [("path", .str "src/a.ts"), ("mode", .str "write")])
    ⟨by decide, trivial, trivial, trivial⟩

/-- The write with its mode first, and blanks around the tenant. -/
def modeFirst : BuildIdempotencyKeyInput :=
  sampleKeyInput " default-org " (.obj [("mode", .str "write"), ("path", .str "src/a.ts")])
    ⟨by decide, trivial, trivial, trivial⟩

/-- The order of the properties and the blanks do not matter to the key. -/
theorem buildIdempotencyKey_eq_iff_reordered :
    ∃ key, IdempotencyKeys.buildIdempotencyKey hexHost pathFirst = .ok key ∧
      IdempotencyKeys.buildIdempotencyKey hexHost modeFirst = .ok key := by
  have hfirst : IdempotencyKeys.buildIdempotencyKey hexHost pathFirst = .ok (key hexHost pathFirst) :=
    buildIdempotencyKey_eq_ok_iff.mpr ⟨sampleKeyInput_accepted (by decide) _ _, rfl⟩
  have hsecond : IdempotencyKeys.buildIdempotencyKey hexHost modeFirst = .ok (key hexHost modeFirst) :=
    buildIdempotencyKey_eq_ok_iff.mpr ⟨sampleKeyInput_accepted (by decide) _ _, rfl⟩
  have hsame : pathFirst.normalizedInput.Same modeFirst.normalizedInput :=
    ⟨_, _, List.Perm.swap _ _ [], rfl, _, _, List.Perm.refl _, rfl, rfl⟩
  have htrim : Text.trim "default-org" = Text.trim " default-org " := by decide
  have hkeys := (buildIdempotencyKey_eq_iff hexHost hexHost_injective hexHost_hex hfirst hsecond).mpr
    ⟨⟨htrim, rfl, rfl, rfl, rfl, rfl, rfl⟩, hsame⟩
  refine ⟨_, hfirst, ?_⟩
  rw [hkeys]
  exact hsecond

end AiOrchestrator
