import AiOrchestrator.Lib.JsonValues
import AiOrchestrator.Lib.Text
import Mathlib.Data.List.Lex

/-!
# The order of property names

An object that was filled in the order of `Object.keys(value).sort()` is written with its array
indices first, in numerical order, and its other names after them, by their UTF-16 code units.
`ownKey` maps a name to its place, and the names are ordered totally (`keyOrder_ownKeyLe`).
-/

namespace Text

/-- The UTF-16 code units of a text. -/
def codeUnits (s : String) : List Nat := s.toList.flatMap charUnits

/-- The first character can be read off the code units. -/
theorem charUnits_append_inj {c d : Char} {rest rest' : List Nat}
    (h : charUnits c ++ rest = charUnits d ++ rest') : c = d ∧ rest = rest' := by
  have hvalid : ∀ c : Char, c.toNat < 0xD800 ∨ 0xDFFF < c.toNat ∧ c.toNat < 0x110000 := fun c => c.valid
  have hc := hvalid c
  have hd := hvalid d
  unfold charUnits at h
  have hnat : c.toNat = d.toNat ∧ rest = rest' := by
    split_ifs at h with hc' hd' hd'
    · obtain ⟨hcd, hrest⟩ := List.cons.inj h
      exact ⟨hcd, hrest⟩
    · have hhead := (List.cons.inj h).1
      omega
    · have hhead := (List.cons.inj h).1
      omega
    · obtain ⟨hhigh, htail⟩ := List.cons.inj h
      obtain ⟨hlow, hrest⟩ := List.cons.inj htail
      exact ⟨by omega, hrest⟩
  refine ⟨?_, hnat.2⟩
  rw [← Char.ofNat_toNat c, ← Char.ofNat_toNat d, hnat.1]

theorem charUnits_ne_nil (c : Char) : charUnits c ≠ [] := by
  unfold charUnits
  split_ifs <;> simp

/-- **The code units determine the text.** -/
theorem codeUnits_injective : Function.Injective codeUnits := by
  have hlist : ∀ cs ds : List Char, cs.flatMap charUnits = ds.flatMap charUnits → cs = ds := by
    intro cs
    induction cs with
    | nil =>
      intro ds h
      cases ds with
      | nil => rfl
      | cons d ds =>
        rw [List.flatMap_nil, List.flatMap_cons] at h
        exact absurd (List.append_eq_nil_iff.mp h.symm).1 (charUnits_ne_nil d)
    | cons c cs ih =>
      intro ds h
      cases ds with
      | nil =>
        rw [List.flatMap_nil, List.flatMap_cons] at h
        exact absurd (List.append_eq_nil_iff.mp h).1 (charUnits_ne_nil c)
      | cons d ds =>
        rw [List.flatMap_cons, List.flatMap_cons] at h
        obtain ⟨rfl, hrest⟩ := charUnits_append_inj h
        rw [ih ds hrest]
  intro s t h
  exact String.toList_inj.mp (hlist _ _ h)

end Text

namespace Json

/-- The number of a name that is an array index. -/
def arrayIndex? (name : String) : Option Nat :=
  let n := Nat.ofDigitChars 10 name.toList 0
  if toString n = name ∧ n < 4294967295 then some n else none

/-- The place of a name. -/
def ownKey (name : String) : List Nat :=
  match arrayIndex? name with
  | some n => [0, n]
  | none => 1 :: Text.codeUnits name

/-- The order in which the names of an object that was filled in sorted order are written. -/
def ownKeyLe (name name' : String) : Bool := ownKey name ≤ ownKey name'

theorem arrayIndex?_eq_some {name : String} {n : Nat} (h : arrayIndex? name = some n) :
    toString n = name := by
  unfold arrayIndex? at h
  dsimp only at h
  split_ifs at h with hname
  obtain rfl := Option.some.inj h
  exact hname.1

/-- Different names have different places. -/
theorem ownKey_injective : Function.Injective ownKey := by
  intro name name' h
  unfold ownKey at h
  cases hindex : arrayIndex? name with
  | some n =>
    cases hindex' : arrayIndex? name' with
    | some n' =>
      rw [hindex, hindex'] at h
      have hn : n = n' := (List.cons.inj (List.cons.inj h).2).1
      rw [← arrayIndex?_eq_some hindex, ← arrayIndex?_eq_some hindex', hn]
    | none =>
      rw [hindex, hindex'] at h
      exact absurd (List.cons.inj h).1 (by decide)
  | none =>
    cases hindex' : arrayIndex? name' with
    | some n' =>
      rw [hindex, hindex'] at h
      exact absurd (List.cons.inj h).1 (by decide)
    | none =>
      rw [hindex, hindex'] at h
      exact Text.codeUnits_injective (List.cons.inj h).2

theorem keyOrder_ownKeyLe : KeyOrder ownKeyLe where
  total name name' := by
    rw [ownKeyLe, ownKeyLe, decide_eq_true_iff, decide_eq_true_iff]
    exact le_total _ _
  trans name name' name'' h h' := by
    rw [ownKeyLe, decide_eq_true_iff] at h h' ⊢
    exact le_trans h h'
  antisymm name name' h h' := by
    rw [ownKeyLe, decide_eq_true_iff] at h h'
    exact ownKey_injective (le_antisymm h h')

end Json
