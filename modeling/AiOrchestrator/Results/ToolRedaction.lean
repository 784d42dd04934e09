import AiOrchestrator.Tools.Redaction

/-!
# Tool redaction and the depth of values

The redaction keeps the shape of every value (`SameShape.visit`). What it returns is clean if and only if the parts
of the input that it does not reach, at one step more than the depth, are clean already: a step lemma for arrays and
objects (`clean_arr`, `clean_obj`) and an induction over the value (`clean_visit_iff`).
-/

namespace AiOrchestrator

namespace ToolRedaction

variable {ν : Type}

/-! ### What is promised -/

mutual

/-- **The same shape** outside what is redacted: texts that look like secrets and values under secret names. -/
inductive SameShape : Json ν → Json ν → Prop
  | same (value : Json ν) : SameShape value value
  | text {s : String} (value : Json ν) (h : isSecretLikeValue s = true) : SameShape (.str s) value
  | arr {items items' : List (Json ν)} (h : List.Forall₂ SameShape items items') :
    SameShape (.arr items) (.arr items')
  | obj {props props' : List (String × Json ν)} (h : SamePropShapes props props') :
    SameShape (.obj props) (.obj props')

/-- The same names in the same order, and the same shapes under those that are not secret. -/
inductive SamePropShapes : List (String × Json ν) → List (String × Json ν) → Prop
  | nil : SamePropShapes [] []
  | cons {key : String} {value value' : Json ν} {props props' : List (String × Json ν)}
    (hvalue : isSecretKey (some key) = false → SameShape value value') (h : SamePropShapes props props') :
    SamePropShapes ((key, value) :: props) ((key, value') :: props')

end

/-- Nothing that looks like a secret: no text, and no value under a secret name but the replacement. -/
structure Clean (redactedValue : String) (value : Json ν) : Prop where
  texts : ∀ s ∈ value.texts, isSecretLikeValue s = false
  entries : ∀ e ∈ value.entries, isSecretKey (some e.1) = true → e.2 = .str redactedValue

/-- The part of a value that is reached in `n` steps from arrays to their items and from objects to the values of
properties without secret names. -/
inductive ReachedIn : Nat → Json ν → Json ν → Prop
  | here (value : Json ν) : ReachedIn 0 value value
  | item {n : Nat} {items : List (Json ν)} {item part : Json ν} (hmem : item ∈ items)
    (h : ReachedIn n item part) : ReachedIn (n + 1) (.arr items) part
  | entry {n : Nat} {props : List (String × Json ν)} {p : String × Json ν} {part : Json ν} (hmem : p ∈ props)
    (hkey : isSecretKey (some p.1) = false) (h : ReachedIn n p.2 part) : ReachedIn (n + 1) (.obj props) part

/-! ### The shape -/

/-- Properties keep their shapes if their values under other names do. -/
theorem SamePropShapes.visitProps {redactedValue : String} {maxDepth : Int} {depth : Nat}
    {props : List (String × Json ν)}
    (h : ∀ p ∈ props, isSecretKey (some p.1) = false →
      SameShape p.2 (visit redactedValue maxDepth (some p.1) depth p.2)) :
    SamePropShapes props (visitProps redactedValue maxDepth depth props) := by
  induction props with
  | nil => exact .nil
  | cons p props ih =>
    obtain ⟨hp, hprops⟩ := List.forall_mem_cons.mp h
    refine .cons (fun hkey => ?_) (ih hprops)
    rw [hkey]
    exact hp hkey

theorem SameShape.visit (redactedValue : String) (maxDepth : Int) (value : Json ν) (key : Option String)
    (depth : Nat) (hkey : isSecretKey key = false) :
    SameShape value (visit redactedValue maxDepth key depth value) := by
  induction value using Json.parts_induction generalizing key depth with
  | null | bool _ | num _ => exact .same _
  | str s =>
    rw [ToolRedaction.visit, hkey, Bool.false_or]
    split_ifs with hdeep hsecret
    · exact .same _
    · exact .text _ hsecret
    · exact .same _
  | arr items ih =>
    rw [ToolRedaction.visit, visitItems_eq_map]
    split_ifs with hdeep
    · exact .same _
    · refine .arr (List.forall₂_map_right_iff.mpr (List.forall₂_same.mpr fun item hitem => ?_))
      exact ih item hitem key (depth + 1) hkey
  | obj props ih =>
    rw [ToolRedaction.visit]
    split_ifs with hdeep
    · exact .same _
    · exact .obj (.visitProps fun p hp hsecret => ih p hp (some p.1) (depth + 1) hsecret)

/-! ### Clean values -/

section Clean

variable {redactedValue : String}

theorem clean_of_empty {value : Json ν} (htexts : value.texts = []) (hentries : value.entries = []) :
    Clean redactedValue value :=
  ⟨by rw [htexts]; exact nofun, by rw [hentries]; exact nofun⟩

theorem clean_str {s : String} :
    Clean redactedValue (.str s : Json ν) ↔ isSecretLikeValue s = false := by
  constructor
  · intro h
    exact h.texts s (List.mem_singleton.mpr rfl)
  · intro h
    refine ⟨fun t ht => ?_, nofun⟩
    rw [List.mem_singleton.mp ht]
    exact h

theorem clean_arr {items : List (Json ν)} :
    Clean redactedValue (.arr items) ↔ ∀ item ∈ items, Clean redactedValue item := by
  constructor
  · intro h item hitem
    exact ⟨fun s hs => h.texts s (Json.mem_texts_arr.mpr ⟨item, hitem, hs⟩),
      fun e he => h.entries e (Json.mem_entries_arr.mpr ⟨item, hitem, he⟩)⟩
  · intro h
    constructor
    · intro s hs
      obtain ⟨item, hitem, hs⟩ := Json.mem_texts_arr.mp hs
      exact (h item hitem).texts s hs
    · intro e he
      obtain ⟨item, hitem, he⟩ := Json.mem_entries_arr.mp he
      exact (h item hitem).entries e he

theorem clean_obj {props : List (String × Json ν)} :
    Clean redactedValue (.obj props) ↔ ∀ p ∈ props,
      (isSecretKey (some p.1) = true → p.2 = .str redactedValue) ∧ Clean redactedValue p.2 := by
  constructor
  · intro h p hp
    exact ⟨h.entries p (Json.mem_entries_obj.mpr ⟨p, hp, .inl rfl⟩),
      fun s hs => h.texts s (Json.mem_texts_obj.mpr ⟨p, hp, hs⟩),
      fun e he => h.entries e (Json.mem_entries_obj.mpr ⟨p, hp, .inr he⟩)⟩
  · intro h
    constructor
    · intro s hs
      obtain ⟨p, hp, hs⟩ := Json.mem_texts_obj.mp hs
      exact (h p hp).2.texts s hs
    · intro e he
      obtain ⟨p, hp, rfl | he⟩ := Json.mem_entries_obj.mp he
      · exact (h e hp).1
      · exact (h p hp).2.entries e he

end Clean

/-! ### What is not reached -/

theorem reachedIn_zero {value part : Json ν} : ReachedIn 0 value part ↔ value = part :=
  ⟨fun h => by cases h; rfl, fun h => h ▸ .here value⟩

theorem reachedIn_arr {n : Nat} {items : List (Json ν)} {part : Json ν} :
    ReachedIn (n + 1) (.arr items) part ↔ ∃ item ∈ items, ReachedIn n item part := by
  constructor
  · rintro (_ | ⟨hmem, h⟩ | _)
    exact ⟨_, hmem, h⟩
  · rintro ⟨item, hmem, h⟩
    exact .item hmem h

theorem reachedIn_obj {n : Nat} {props : List (String × Json ν)} {part : Json ν} :
    ReachedIn (n + 1) (.obj props) part ↔
      ∃ p ∈ props, isSecretKey (some p.1) = false ∧ ReachedIn n p.2 part := by
  constructor
  · rintro (_ | _ | ⟨hmem, hkey, h⟩)
    exact ⟨_, hmem, hkey, h⟩
  · rintro ⟨p, hmem, hkey, h⟩
    exact .entry hmem hkey h

/-- The value of a property after the redaction is clean. -/
theorem clean_visitEntry_iff {redactedValue : String} (hplain : isSecretLikeValue redactedValue = false)
    {maxDepth : Int} {depth : Nat} {p : String × Json ν} :
    ((isSecretKey (some p.1) = true → visitEntry redactedValue maxDepth depth p = .str redactedValue) ∧
        Clean redactedValue (visitEntry redactedValue maxDepth depth p)) ↔
      (isSecretKey (some p.1) = false →
        Clean redactedValue (visit redactedValue maxDepth (some p.1) depth p.2)) := by
  unfold visitEntry
  cases hsecret : isSecretKey (some p.1) with
  | true => simpa using clean_str.mpr hplain
  | false => simp

/-- **What is returned is clean** exactly when the parts that are not reached are. -/
theorem clean_visit_iff {redactedValue : String} (hplain : isSecretLikeValue redactedValue = false)
    (maxDepth : Int) (value : Json ν) (key : Option String) (depth : Nat) (hkey : isSecretKey key = false) :
    Clean redactedValue (visit redactedValue maxDepth key depth value) ↔
      ∀ part, ReachedIn (maxDepth + 1 - depth).toNat value part → Clean redactedValue part := by
  induction value using Json.parts_induction generalizing key depth with
  | null | bool _ | num _ =>
    generalize (maxDepth + 1 - depth).toNat = n
    refine iff_of_true (clean_of_empty rfl rfl) fun part hpart => ?_
    cases hpart
    exact clean_of_empty rfl rfl
  | str s =>
    by_cases hdeep : maxDepth < depth
    · rw [visit_of_lt redactedValue hdeep, Int.toNat_of_nonpos (by omega)]
      simp only [reachedIn_zero, forall_eq']
    · obtain ⟨n, hn⟩ : ∃ n, (maxDepth + 1 - depth).toNat = n + 1 := ⟨(maxDepth - depth).toNat, by omega⟩
      rw [hn, visit, if_neg hdeep, hkey, Bool.false_or]
      refine iff_of_true ?_ fun part hpart => by cases hpart
      split_ifs with hsecret
      · exact clean_str.mpr hplain
      · exact clean_str.mpr (Bool.eq_false_iff.mpr hsecret)
  | arr items ih =>
    by_cases hdeep : maxDepth < depth
    · rw [visit_of_lt redactedValue hdeep, Int.toNat_of_nonpos (by omega)]
      simp only [reachedIn_zero, forall_eq']
    · have hn : (maxDepth + 1 - depth).toNat = (maxDepth + 1 - (depth + 1 : Nat)).toNat + 1 := by omega
      rw [hn, visit, if_neg hdeep, visitItems_eq_map, clean_arr, List.forall_mem_map]
      calc (∀ item ∈ items, Clean redactedValue (visit redactedValue maxDepth key (depth + 1) item))
          ↔ ∀ item ∈ items, ∀ part, ReachedIn (maxDepth + 1 - (depth + 1 : Nat)).toNat item part →
              Clean redactedValue part :=
            forall₂_congr fun item hitem => ih item hitem key (depth + 1) hkey
        _ ↔ _ := by
            simp only [reachedIn_arr]
            constructor
            · rintro h part ⟨item, hitem, hpart⟩
              exact h item hitem part hpart
            · intro h item hitem part hpart
              exact h part ⟨item, hitem, hpart⟩
  | obj props ih =>
    by_cases hdeep : maxDepth < depth
    · rw [visit_of_lt redactedValue hdeep, Int.toNat_of_nonpos (by omega)]
      simp only [reachedIn_zero, forall_eq']
    · have hn : (maxDepth + 1 - depth).toNat = (maxDepth + 1 - (depth + 1 : Nat)).toNat + 1 := by omega
      rw [hn, visit, if_neg hdeep, visitProps_eq_map, clean_obj, List.forall_mem_map]
      calc (∀ p ∈ props, (isSecretKey (some p.1) = true →
              visitEntry redactedValue maxDepth (depth + 1) p = .str redactedValue) ∧
            Clean redactedValue (visitEntry redactedValue maxDepth (depth + 1) p))
          ↔ ∀ p ∈ props, isSecretKey (some p.1) = false →
              Clean redactedValue (visit redactedValue maxDepth (some p.1) (depth + 1) p.2) :=
            forall₂_congr fun p _ => clean_visitEntry_iff hplain
        _ ↔ ∀ p ∈ props, isSecretKey (some p.1) = false → ∀ part,
              ReachedIn (maxDepth + 1 - (depth + 1 : Nat)).toNat p.2 part → Clean redactedValue part :=
            forall₃_congr fun p hp hsecret => ih p hp (some p.1) (depth + 1) hsecret
        _ ↔ _ := by
            simp only [reachedIn_obj]
            constructor
            · rintro h part ⟨p, hp, hsecret, hpart⟩
              exact h p hp hsecret part hpart
            · intro h p hp hsecret part hpart
              exact h part ⟨p, hp, hsecret, hpart⟩

/-! ### The result -/

/-- Redaction at every depth: the same shape outside what is redacted, and nothing that looks like a secret. -/
structure RedactionPromise (options : RedactSecretsOptions) (input : Json ν) : Prop where
  shape : SameShape input (redactSecrets options input)
  names : ∀ e ∈ (redactSecrets options input).entries, isSecretKey (some e.1) = true →
    e.2 = .str (options.redactedValue.getD redactedValueDefault)
  texts : ∀ s ∈ (redactSecrets options input).texts, isSecretLikeValue s = false

/-- **Redaction at every depth** is what a value gets whose parts below the depth are clean already, and no other
value. -/
theorem toolRedaction_iff (options : RedactSecretsOptions) (input : Json ν)
    (hplain : isSecretLikeValue (options.redactedValue.getD redactedValueDefault) = false) :
    RedactionPromise options input ↔
      ∀ part, ReachedIn (options.maxDepth.getD 8 + 1).toNat input part →
        Clean (options.redactedValue.getD redactedValueDefault) part := by
  have hclean := clean_visit_iff hplain (options.maxDepth.getD 8) input none 0 rfl
  have hzero : options.maxDepth.getD 8 + 1 - ((0 : Nat) : Int) = options.maxDepth.getD 8 + 1 := Int.sub_zero _
  rw [← hzero, ← hclean]
  constructor
  · intro h
    exact ⟨h.texts, h.names⟩
  · intro h
    exact ⟨.visit _ _ input none 0 rfl, h.entries, h.texts⟩

/-- A list around a value, `n` times. -/
def wrapped : Nat → Json ν → Json ν
  | 0, value => value
  | n + 1, value => .arr [wrapped n value]

/-- What is reached in a wrapped value is reached in the value. -/
theorem reachedIn_wrapped {m n : Nat} {value part : Json ν} :
    ReachedIn (m + n) (wrapped n value) part ↔ ReachedIn m value part := by
  induction n with
  | zero => rfl
  | succ n ih =>
    rw [← Nat.add_assoc, wrapped, reachedIn_arr]
    constructor
    · rintro ⟨item, hitem, hpart⟩
      rw [List.mem_singleton.mp hitem] at hpart
      exact ih.mp hpart
    · exact fun hpart => ⟨_, List.mem_singleton_self _, ih.mpr hpart⟩

/-- A log with a password, keys in lists of lists, and a text as deep as the redaction looks. -/
def log (password key number : Json Nat) : Json Nat :=
  .obj [("user", .str "ana"), ("password", password),
    ("steps", wrapped 3 (.arr [key, .obj [("apiKey", number), ("kind", .str "cloud")]])),
    ("trace", wrapped 8 (.str "done"))]

/-- Names and texts that look like secrets are redacted in a record, and in the lists of lists in
it; a plain text in the last list is left as it is. -/
theorem toolRedaction_iff_wrapped :
    RedactionPromise ⟨none, none⟩ (log (.str "letmein") (.str "AKIA0123456789ABCDEF") (.num 7)) ∧
      redactSecrets ⟨none, none⟩ (log (.str "letmein") (.str "AKIA0123456789ABCDEF") (.num 7)) =
        log (.str redactedValueDefault) (.str redactedValueDefault)
          (.str redactedValueDefault) := by
  refine ⟨(toolRedaction_iff ⟨none, none⟩ _ (by decide +kernel)).mpr fun part hpart => ?_, rfl⟩
  obtain ⟨p, hp, hkey, hpart⟩ := reachedIn_obj.mp hpart
  -- the only part at that depth is the text in the last list
  rcases List.mem_cons.mp hp with rfl | hp
  · cases hpart
  rcases List.mem_cons.mp hp with rfl | hp
  · cases hkey
  rcases List.mem_cons.mp hp with rfl | hp
  · obtain ⟨item, hitem, hpart⟩ := reachedIn_arr.mp ((reachedIn_wrapped (m := 5) (n := 3)).mp hpart)
    rcases List.mem_cons.mp hitem with rfl | hitem
    · cases hpart
    · rw [List.mem_singleton.mp hitem] at hpart
      obtain ⟨p, hp, hkey, hpart⟩ := reachedIn_obj.mp hpart
      rcases List.mem_cons.mp hp with rfl | hp
      · cases hkey
      · rw [List.mem_singleton.mp hp] at hpart
        cases hpart
  · rw [List.mem_singleton.mp hp] at hpart
    rw [← reachedIn_zero.mp ((reachedIn_wrapped (m := 0) (n := 8)).mp hpart)]
    exact clean_str.mpr (by decide +kernel)

/-- A password in nine lists is kept. -/
theorem wrapped_password_kept :
    ¬ RedactionPromise ⟨none, none⟩ (wrapped 9 (.obj [("password", .str "letmein")]) : Json Nat) := by
  intro h
  have hkept := h.names ("password", .str "letmein") List.mem_cons_self (by decide)
  exact absurd (Json.str.inj hkept) (by decide)

end ToolRedaction

end AiOrchestrator
