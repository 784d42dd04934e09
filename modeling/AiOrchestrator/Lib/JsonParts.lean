import AiOrchestrator.Lib.Json

/-!
# The parts of a JSON value

The texts and the properties that occur anywhere in a value, and induction over a value with its items and the
values of its properties as the smaller ones.
-/

namespace Json

variable {ν : Type}

mutual

/-- The texts in a value that are no names of properties. -/
def texts : Json ν → List String
  | .arr items => itemTexts items
  | .str s => [s]
  | .obj props => propTexts props
  | .null => []
  | .bool _ => []
  | .num _ => []
termination_by structural value => value

/-- The texts in the items of an array. -/
def itemTexts : List (Json ν) → List String
  | [] => []
  | item :: items => texts item ++ itemTexts items
termination_by structural items => items

/-- The texts in the values of properties. -/
def propTexts : List (String × Json ν) → List String
  | [] => []
  | (_, entry) :: props => texts entry ++ propTexts props
termination_by structural props => props

end

mutual

/-- The properties in a value, with their values. -/
def entries : Json ν → List (String × Json ν)
  | .arr items => itemEntries items
  | .obj props => propEntries props
  | .null => []
  | .bool _ => []
  | .num _ => []
  | .str _ => []
termination_by structural value => value

/-- The properties in the items of an array. -/
def itemEntries : List (Json ν) → List (String × Json ν)
  | [] => []
  | item :: items => entries item ++ itemEntries items
termination_by structural items => items

/-- Properties and those in their values. -/
def propEntries : List (String × Json ν) → List (String × Json ν)
  | [] => []
  | (key, entry) :: props => (key, entry) :: entries entry ++ propEntries props
termination_by structural props => props

end

/-! ### Membership -/

theorem mem_texts_arr {items : List (Json ν)} {s : String} :
    s ∈ texts (.arr items) ↔ ∃ item ∈ items, s ∈ texts item := by
  rw [texts]
  induction items with
  | nil => simp [itemTexts]
  | cons item items ih => rw [itemTexts, List.mem_append, ih, List.exists_mem_cons_iff]

theorem mem_texts_obj {props : List (String × Json ν)} {s : String} :
    s ∈ texts (.obj props) ↔ ∃ p ∈ props, s ∈ texts p.2 := by
  rw [texts]
  induction props with
  | nil => simp [propTexts]
  | cons p props ih => rw [propTexts, List.mem_append, ih, List.exists_mem_cons_iff]

theorem mem_entries_arr {items : List (Json ν)} {e : String × Json ν} :
    e ∈ entries (.arr items) ↔ ∃ item ∈ items, e ∈ entries item := by
  rw [entries]
  induction items with
  | nil => simp [itemEntries]
  | cons item items ih => rw [itemEntries, List.mem_append, ih, List.exists_mem_cons_iff]

theorem mem_entries_obj {props : List (String × Json ν)} {e : String × Json ν} :
    e ∈ entries (.obj props) ↔ ∃ p ∈ props, e = p ∨ e ∈ entries p.2 := by
  rw [entries]
  induction props with
  | nil => simp [propEntries]
  | cons p props ih =>
    rw [propEntries, List.mem_append, List.mem_cons, ih, List.exists_mem_cons_iff]

/-- **Induction over a value**: what holds of an array if it holds of the items, of an object if it holds of the
values of its properties, and of all others, holds of every value. -/
theorem parts_induction {motive : Json ν → Prop} (null : motive .null) (bool : ∀ b, motive (.bool b))
    (num : ∀ n, motive (.num n)) (str : ∀ s, motive (.str s))
    (arr : ∀ items, (∀ item ∈ items, motive item) → motive (.arr items))
    (obj : ∀ props, (∀ p ∈ props, motive p.2) → motive (.obj props)) (value : Json ν) :
    motive value :=
  @Json.rec ν motive (fun items => ∀ item ∈ items, motive item) (fun props => ∀ p ∈ props, motive p.2)
    (fun p => motive p.2) null bool num str arr obj nofun
    (fun _ _ hitem hitems => List.forall_mem_cons.mpr ⟨hitem, hitems⟩) nofun
    (fun _ _ hentry hprops => List.forall_mem_cons.mpr ⟨hentry, hprops⟩) (fun _ _ hentry => hentry) value

end Json
