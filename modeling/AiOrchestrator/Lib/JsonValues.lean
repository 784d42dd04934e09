import AiOrchestrator.Lib.Json

/-!
# Equality of JSON values

Two values are the same if they differ at most in the order of the properties of their objects
(`Json.Same`). The canonical text says exactly this of values in which no object has two properties
of one name (`Json.canonical_eq_iff`), for every total order of the names. `Json.without` leaves out
the properties of one name, at every depth.
-/

namespace Json

variable {ν : Type}

/-! ### Equality up to the order of properties -/

mutual

/-- **Equal values**: objects are equal that have equal values under the same keys. -/
def Same : Json ν → Json ν → Prop
  | .null, .null => True
  | .bool b, .bool b' => b = b'
  | .num n, .num n' => n = n'
  | .str s, .str s' => s = s'
  | .arr items, .arr items' => SameItems items items'
  | .obj props, .obj props' => SameProps props props'
  | _, _ => False
termination_by structural j => j

def SameItems : List (Json ν) → List (Json ν) → Prop
  | [], [] => True
  | j :: js, j' :: js' => Same j j' ∧ SameItems js js'
  | _, _ => False
termination_by structural js => js

def SameProps : List (String × Json ν) → List (String × Json ν) → Prop
  | [], props' => props' = []
  | (k, v) :: props, props' =>
    ∃ v' rest, props'.Perm ((k, v') :: rest) ∧ Same v v' ∧ SameProps props rest
termination_by structural props => props

end

mutual

/-- **Values of the language**: no object has two properties of one name. -/
def Distinct : Json ν → Prop
  | .null | .bool _ | .num _ | .str _ => True
  | .arr items => DistinctItems items
  | .obj props => (props.map Prod.fst).Nodup ∧ DistinctProps props
termination_by structural j => j

def DistinctItems : List (Json ν) → Prop
  | [] => True
  | j :: js => Distinct j ∧ DistinctItems js
termination_by structural js => js

def DistinctProps : List (String × Json ν) → Prop
  | [] => True
  | (_, v) :: props => Distinct v ∧ DistinctProps props
termination_by structural props => props

end

variable {le : String → String → Bool}

theorem sameProps_of_perm {props props' : List (String × Json ν)}
    (h : (sortedProps le props).Perm (sortedProps le props')) :
    (∀ v ∈ props.map Prod.snd, ∀ j', sorted le v = sorted le j' → Same v j') →
      SameProps props props' := by
  induction props generalizing props' with
  | nil =>
    intro _
    rw [sortedProps_eq_map, sortedProps_eq_map, List.map_nil] at h
    exact List.map_eq_nil_iff.mp h.nil_eq.symm
  | cons p props ih =>
    intro hvalues
    obtain ⟨k, v⟩ := p
    rw [sortedProps_eq_map, sortedProps_eq_map, List.map_cons] at h
    have hmem := h.subset List.mem_cons_self
    obtain ⟨⟨k', v'⟩, hp', heq⟩ := List.mem_map.mp hmem
    obtain ⟨before, after, hsplit⟩ := List.append_of_mem hp'
    obtain ⟨rfl, hv⟩ := Prod.mk.inj heq
    have hperm : props'.Perm ((k', v') :: (before ++ after)) := by
      rw [hsplit]
      exact List.perm_middle
    refine ⟨v', before ++ after, hperm, hvalues v (by simp) v' hv.symm, ih ?_ ?_⟩
    · rw [sortedProps_eq_map, sortedProps_eq_map]
      have hrest := h.trans (hperm.map fun p => (p.1, sorted le p.2))
      rw [List.map_cons, hv] at hrest
      exact hrest.cons_inv
    · intro w hw
      exact hvalues w (by simp only [List.map_cons, List.mem_cons]; exact Or.inr hw)

/-- Values that are sorted to one value are equal. -/
theorem same_of_sorted (j : Json ν) : ∀ j', sorted le j = sorted le j' → Same j j' := by
  refine @Json.rec ν (fun j => ∀ j', sorted le j = sorted le j' → Same j j')
    (fun js => ∀ js', sortedItems le js = sortedItems le js' → SameItems js js')
    (fun props => ∀ v ∈ props.map Prod.snd, ∀ j', sorted le v = sorted le j' → Same v j')
    (fun p => ∀ j', sorted le p.2 = sorted le j' → Same p.2 j')
    ?_ ?_ ?_ ?_ ?_ ?_ ?_ ?_ ?_ ?_ ?_ j
  · intro j' h
    cases j' with
    | null => trivial
    | _ => cases h
  · intro b j' h
    cases j' <;> first | exact Json.bool.inj h | cases h
  · intro n j' h
    cases j' <;> first | exact Json.num.inj h | cases h
  · intro s j' h
    cases j' <;> first | exact Json.str.inj h | cases h
  · intro items hitems j' h
    cases j' with
    | arr items' => exact hitems items' (Json.arr.inj h)
    | _ => cases h
  · intro props hprops j' h
    cases j' with
    | obj props' =>
      have hsort := Json.obj.inj h
      have hperm := ((List.perm_insertionSort _ _).symm.trans (hsort ▸ List.perm_insertionSort _ _))
      exact sameProps_of_perm hperm.symm hprops
    | _ => cases h
  · intro js' h
    cases js' with
    | nil => trivial
    | cons j' js' => cases h
  · intro j js hj hjs js' h
    cases js' with
    | nil => cases h
    | cons j' js' =>
      obtain ⟨hhead, htail⟩ := List.cons.inj h
      exact ⟨hj j' hhead, hjs js' htail⟩
  · intro v hv
    cases hv
  · intro p props hp hprops v hv
    rw [List.map_cons] at hv
    rcases List.mem_cons.mp hv with rfl | hv
    · exact hp
    · exact hprops v hv
  · intro k v hv
    exact hv

/-- A total order on property names. -/
structure KeyOrder (le : String → String → Bool) : Prop where
  total : ∀ k k', le k k' = true ∨ le k' k = true
  trans : ∀ k k' k'', le k k' = true → le k' k'' = true → le k k'' = true
  antisymm : ∀ k k', le k k' = true → le k' k = true → k = k'

/-- The sort by keys does not depend on the order of the properties. -/
theorem insertionSort_eq_of_perm (hle : KeyOrder le) {props props' : List (String × Json ν)}
    (h : props.Perm props') (hnodup : (props.map Prod.fst).Nodup) :
    (props.insertionSort fun a b => le a.1 b.1 = true) =
      props'.insertionSort fun a b => le a.1 b.1 = true := by
  have : Std.Total fun a b : String × Json ν => le a.1 b.1 = true :=
    ⟨fun a b => hle.total a.1 b.1⟩
  have : IsTrans (String × Json ν) fun a b => le a.1 b.1 = true :=
    ⟨fun a b c => hle.trans a.1 b.1 c.1⟩
  have hsame := (List.perm_insertionSort (fun a b : String × Json ν => le a.1 b.1 = true) props).trans
    (h.trans (List.perm_insertionSort (fun a b => le a.1 b.1 = true) props').symm)
  refine List.Perm.eq_of_pairwise ?_ (List.pairwise_insertionSort _ _)
    (List.pairwise_insertionSort _ _) hsame
  intro a b ha hb hab hba
  have ha' : a ∈ props := (List.mem_insertionSort _).mp ha
  have hb' : b ∈ props := h.mem_iff.mpr ((List.mem_insertionSort _).mp hb)
  have hkey := hle.antisymm a.1 b.1 hab hba
  exact List.inj_on_of_nodup_map hnodup ha' hb' hkey

theorem sortedProps_perm_of_same {props props' : List (String × Json ν)}
    (h : SameProps props props') (hdistinct : DistinctProps props) :
    (∀ v ∈ props.map Prod.snd, ∀ j', Same v j' → Distinct v → sorted le v = sorted le j') →
      (sortedProps le props).Perm (sortedProps le props') := by
  induction props generalizing props' with
  | nil =>
    intro _
    cases (h : props' = [])
    exact List.Perm.nil
  | cons p props ih =>
    intro hvalues
    obtain ⟨k, v⟩ := p
    obtain ⟨v', rest, hperm, hsame, hrest⟩ := h
    obtain ⟨hv, hdistincts⟩ := hdistinct
    have hhead : sorted le v = sorted le v' := hvalues v (by simp) v' hsame hv
    have htail := ih hrest hdistincts fun w hw =>
      hvalues w (by simp only [List.map_cons, List.mem_cons]; exact Or.inr hw)
    have hprops' : (sortedProps le props').Perm (sortedProps le ((k, v') :: rest)) := by
      rw [sortedProps_eq_map, sortedProps_eq_map]
      exact hperm.map _
    refine List.Perm.trans ?_ hprops'.symm
    rw [sortedProps, sortedProps, hhead]
    exact htail.cons _

/-- Equal values of the language are sorted to one value. -/
theorem sorted_of_same (hle : KeyOrder le) (j : Json ν) :
    ∀ j', Same j j' → Distinct j → sorted le j = sorted le j' := by
  refine @Json.rec ν (fun j => ∀ j', Same j j' → Distinct j → sorted le j = sorted le j')
    (fun js => ∀ js', SameItems js js' → DistinctItems js →
      sortedItems le js = sortedItems le js')
    (fun props => ∀ v ∈ props.map Prod.snd, ∀ j', Same v j' → Distinct v →
      sorted le v = sorted le j')
    (fun p => ∀ j', Same p.2 j' → Distinct p.2 → sorted le p.2 = sorted le j')
    ?_ ?_ ?_ ?_ ?_ ?_ ?_ ?_ ?_ ?_ ?_ j
  · intro j' h _
    cases j' <;> first | rfl | exact h.elim
  · intro b j' h _
    cases j' <;> first | exact congrArg Json.bool h | exact h.elim
  · intro n j' h _
    cases j' <;> first | exact congrArg Json.num h | exact h.elim
  · intro s j' h _
    cases j' <;> first | exact congrArg Json.str h | exact h.elim
  · intro items hitems j' h hdistinct
    cases j' with
    | arr items' => exact congrArg Json.arr (hitems items' h hdistinct)
    | _ => exact h.elim
  · intro props hprops j' h hdistinct
    cases j' with
    | obj props' =>
      obtain ⟨hnodup, hdistincts⟩ := hdistinct
      have hperm := sortedProps_perm_of_same h hdistincts hprops
      have hkeys : ((sortedProps le props).map Prod.fst).Nodup := by
        rw [sortedProps_eq_map, List.map_map]
        exact hnodup
      exact congrArg Json.obj (insertionSort_eq_of_perm hle hperm hkeys)
    | _ => exact h.elim
  · intro js' h _
    cases js' <;> first | rfl | exact h.elim
  · intro j js hj hjs js' h hdistinct
    cases js' with
    | nil => exact h.elim
    | cons j' js' =>
      rw [sortedItems, sortedItems, hj j' h.1 hdistinct.1, hjs js' h.2 hdistinct.2]
  · intro v hv
    cases hv
  · intro p props hp hprops v hv
    rw [List.map_cons] at hv
    rcases List.mem_cons.mp hv with rfl | hv
    · exact hp
    · exact hprops v hv
  · intro k v hv
    exact hv

/-- **Canonical texts identify values** up to the order of properties. -/
theorem canonical_eq_iff {numText : ν → String} (hnum : NumberText numText) (hle : KeyOrder le)
    {j j' : Json ν} (hj : Distinct j) :
    canonical numText le j = canonical numText le j' ↔ Same j j' := by
  rw [canonical_eq_text, canonical_eq_text]
  constructor
  · intro h
    exact same_of_sorted j j' (render_injective hnum (String.ofList_injective h))
  · intro h
    rw [sorted_of_same hle j j' h hj]

/-! ### Objects with the same names -/

theorem SameProps.perm {props props' props'' : List (String × Json ν)} (h : SameProps props props')
    (hperm : props'.Perm props'') : SameProps props props'' := by
  cases props with
  | nil =>
    cases (h : props' = [])
    exact hperm.nil_eq.symm
  | cons p props =>
    obtain ⟨k, v⟩ := p
    obtain ⟨v', rest, hrest, hsame⟩ := h
    exact ⟨v', rest, hperm.symm.trans hrest, hsame⟩

/-- Objects that begin with one name. -/
theorem sameProps_cons_iff {k : String} {v v' : Json ν} {props props' : List (String × Json ν)}
    (hfresh : k ∉ props'.map Prod.fst) :
    SameProps ((k, v) :: props) ((k, v') :: props') ↔ Same v v' ∧ SameProps props props' := by
  constructor
  · rintro ⟨w, rest, hperm, hsame, hrest⟩
    have hw : w = v' := by
      rcases List.mem_cons.mp (hperm.mem_iff.mpr List.mem_cons_self) with heq | hmem
      · exact (Prod.mk.inj heq).2
      · exact absurd (List.mem_map_of_mem hmem) hfresh
    subst hw
    exact ⟨hsame, hrest.perm hperm.cons_inv.symm⟩
  · rintro ⟨hsame, hrest⟩
    exact ⟨v', props', List.Perm.refl _, hsame, hrest⟩

/-! ### Leaving out a name -/

mutual

/-- A value without the properties of a name. -/
def without (name : String) : Json ν → Json ν
  | .null => .null
  | .bool b => .bool b
  | .num n => .num n
  | .str s => .str s
  | .arr items => .arr (withoutItems name items)
  | .obj props => .obj (withoutProps name props)
termination_by structural j => j

def withoutItems (name : String) : List (Json ν) → List (Json ν)
  | [] => []
  | j :: js => without name j :: withoutItems name js
termination_by structural js => js

def withoutProps (name : String) : List (String × Json ν) → List (String × Json ν)
  | [] => []
  | (k, v) :: props =>
    if k = name then withoutProps name props else (k, without name v) :: withoutProps name props
termination_by structural props => props

end

theorem keys_withoutProps (name : String) (props : List (String × Json ν)) :
    ((withoutProps name props).map Prod.fst).Sublist (props.map Prod.fst) := by
  induction props with
  | nil => exact List.Sublist.slnil
  | cons p props ih =>
    obtain ⟨k, v⟩ := p
    rw [withoutProps]
    split_ifs with hk
    · exact ih.cons k
    · exact ih.cons_cons k

theorem Distinct.without {name : String} {j : Json ν} (h : Distinct j) :
    Distinct (Json.without name j) := by
  revert h
  refine @Json.rec ν (fun j => Distinct j → Distinct (Json.without name j))
    (fun js => DistinctItems js → DistinctItems (withoutItems name js))
    (fun props => DistinctProps props → DistinctProps (withoutProps name props))
    (fun p => Distinct p.2 → Distinct (Json.without name p.2))
    ?_ ?_ ?_ ?_ ?_ ?_ ?_ ?_ ?_ ?_ ?_ j
  · exact id
  · exact fun _ => id
  · exact fun _ => id
  · exact fun _ => id
  · intro items hitems h
    exact hitems h
  · intro props hprops h
    exact ⟨h.1.sublist (keys_withoutProps name props), hprops h.2⟩
  · exact id
  · intro j js hj hjs h
    exact ⟨hj h.1, hjs h.2⟩
  · exact id
  · intro p props hp hprops h
    obtain ⟨k, v⟩ := p
    rw [withoutProps]
    split_ifs with hk
    · exact hprops h.2
    · exact ⟨hp h.1, hprops h.2⟩
  · intro k v h
    exact h

end Json
