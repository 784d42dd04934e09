import Mathlib.Data.List.Basic
import Mathlib.Data.List.Sort

/-!
# Where a sort puts an element

`head?_insertionSort_cons` follows the first element of a sorted list through the sort, for any
relation; for a comparison it is one of the least (`head?_insertionSort_least`).

A stable sort puts an element behind the elements before it that need not follow it, and behind the
elements after it that have to precede it. `rank` counts these: an element that stands between
`before` and `after` is sorted to the place with that number (`insertionSort_split`), and every place
of the sorted list is taken in this way (`exists_split_of_insertionSort`).
-/

namespace Sorting

variable {α : Type} (r : α → α → Prop) [DecidableRel r]

/-- **The place** of an element between `before` and `after` in the sorted list. -/
def rank (before : List α) (x : α) (after : List α) : Nat :=
  before.countP (fun b => decide (r b x)) + after.countP (fun b => !decide (r x b))

variable {r}

theorem rank_cons_of_rel {b x : α} (h : r b x) (before after : List α) :
    rank r (b :: before) x after = rank r before x after + 1 := by
  have hcount : (b :: before).countP (fun c => decide (r c x)) =
      before.countP (fun c => decide (r c x)) + 1 := List.countP_cons_of_pos (by simpa using h)
  unfold rank
  omega

theorem rank_cons_of_not_rel {b x : α} (h : ¬ r b x) (before after : List α) :
    rank r (b :: before) x after = rank r before x after := by
  have hcount : (b :: before).countP (fun c => decide (r c x)) =
      before.countP (fun c => decide (r c x)) := List.countP_cons_of_neg (by simpa using h)
  unfold rank
  omega

/-! ### The first place -/

/-- The head of a sort is an element. -/
theorem mem_of_head?_insertionSort {l : List α} {a : α} (h : (l.insertionSort r).head? = some a) :
    a ∈ l :=
  (List.mem_insertionSort r).mp (List.mem_of_mem_head? (Option.mem_def.mpr h))

/-- A sort has a head as soon as there is an element. -/
theorem exists_head?_insertionSort {l : List α} {a : α} (h : a ∈ l) :
    ∃ first, (l.insertionSort r).head? = some first := by
  rw [← Option.isSome_iff_exists, List.isSome_head?]
  exact List.ne_nil_of_mem ((List.mem_insertionSort r).mpr h)

/-- **The head of a sort**: the first element, or the head of the others' sort where the first one
need not precede it. -/
theorem head?_insertionSort_cons (a : α) (l : List α) :
    ((a :: l).insertionSort r).head? =
      match (l.insertionSort r).head? with
      | none => some a
      | some b => if r a b then some a else some b := by
  rw [List.insertionSort_cons]
  cases l.insertionSort r with
  | nil => rfl
  | cons b bs =>
    rw [List.orderedInsert_cons]
    show List.head? (if r a b then a :: b :: bs else b :: List.orderedInsert r a bs) =
      if r a b then some a else some b
    split <;> rfl

/-- An element that need not follow any other one is sorted to the front, if it was there. -/
theorem head?_insertionSort_of_first {a : α} {l : List α} (h : ∀ b ∈ l, r a b) :
    ((a :: l).insertionSort r).head? = some a := by
  rw [head?_insertionSort_cons]
  cases hhead : (l.insertionSort r).head? with
  | none => rfl
  | some b => exact if_pos (h b (mem_of_head?_insertionSort hhead))

/-- **The head of a sort is found among the elements that precede all others.** -/
theorem head?_insertionSort_filter {p : α → Bool} {l : List α}
    (hbefore : ∀ a ∈ l, ∀ b ∈ l, p a = true → p b = false → r a b)
    (hafter : ∀ a ∈ l, ∀ b ∈ l, p a = false → p b = true → ¬ r a b) {x : α}
    (h : ((l.filter p).insertionSort r).head? = some x) : (l.insertionSort r).head? = some x := by
  induction l generalizing x with
  | nil => cases h
  | cons a l ih =>
    have hrest : ∀ {y}, ((l.filter p).insertionSort r).head? = some y →
        (l.insertionSort r).head? = some y :=
      ih (fun c hc d hd => hbefore c (List.mem_cons_of_mem a hc) d (List.mem_cons_of_mem a hd))
        (fun c hc d hd => hafter c (List.mem_cons_of_mem a hc) d (List.mem_cons_of_mem a hd))
    by_cases ha : p a = true
    · rw [List.filter_cons_of_pos ha, head?_insertionSort_cons] at h
      rw [head?_insertionSort_cons]
      cases hfirst : ((l.filter p).insertionSort r).head? with
      | some y =>
        rw [hfirst] at h
        rw [hrest hfirst]
        exact h
      | none =>
        rw [hfirst] at h
        cases h
        cases hhead : (l.insertionSort r).head? with
        | none => rfl
        | some y =>
          -- none of the others has the property, so that `a` precedes them all
          have hmem := mem_of_head?_insertionSort hhead
          have hy : p y = false := by
            by_contra hpy
            have hin := List.mem_filter.mpr ⟨hmem, Bool.not_eq_false _ ▸ hpy⟩
            obtain ⟨first, hsome⟩ := exists_head?_insertionSort (r := r) hin
            rw [hfirst] at hsome
            cases hsome
          exact if_pos (hbefore a List.mem_cons_self y (List.mem_cons_of_mem a hmem) ha hy)
    -- Without the property `a` does not precede the least of those that have it.
    · rw [List.filter_cons_of_neg ha] at h
      have hx := (List.mem_filter.mp (mem_of_head?_insertionSort h)).2
      have hmem := mem_of_head?_insertionSort (hrest h)
      rw [head?_insertionSort_cons, hrest h]
      exact if_neg (hafter a List.mem_cons_self x (List.mem_cons_of_mem a hmem)
        (Bool.eq_false_iff.mpr ha) hx)

/-- Two relations that agree on the elements sort alike. -/
theorem insertionSort_congr {s : α → α → Prop} [DecidableRel s] {l : List α}
    (h : ∀ a ∈ l, ∀ b ∈ l, r a b ↔ s a b) : l.insertionSort r = l.insertionSort s := by
  have hinsert : ∀ (a : α) (m : List α), (∀ b ∈ m, r a b ↔ s a b) →
      m.orderedInsert r a = m.orderedInsert s a := by
    intro a m
    induction m with
    | nil => exact fun _ => rfl
    | cons b m ih =>
      intro hm
      rw [List.orderedInsert_cons, List.orderedInsert_cons,
        ih fun c hc => hm c (List.mem_cons_of_mem b hc)]
      by_cases hb : r a b
      · rw [if_pos hb, if_pos ((hm b List.mem_cons_self).mp hb)]
      · rw [if_neg hb, if_neg fun hs => hb ((hm b List.mem_cons_self).mpr hs)]
  induction l with
  | nil => rfl
  | cons a l ih =>
    rw [List.insertionSort_cons, List.insertionSort_cons,
      ih fun c hc d hd => h c (List.mem_cons_of_mem a hc) d (List.mem_cons_of_mem a hd)]
    refine hinsert a _ fun b hb => ?_
    exact h a List.mem_cons_self b (List.mem_cons_of_mem a ((List.mem_insertionSort s).mp hb))

/-- **The head of a sort by a comparison** is one of the least. -/
theorem head?_insertionSort_least {β : Type} {cmp : β → β → Ordering} [Std.TransCmp cmp] {f : α → β}
    {l : List α} {x : α}
    (h : (l.insertionSort fun a b => cmp (f a) (f b) ≠ .gt).head? = some x) {y : α} (hy : y ∈ l) :
    cmp (f x) (f y) ≠ .gt := by
  let le : α → α → Prop := fun a b => cmp (f a) (f b) ≠ .gt
  have htotal : Std.Total le :=
    ⟨fun a b => by
      by_cases hgt : cmp (f a) (f b) = .gt
      · refine Or.inr ?_
        show cmp (f b) (f a) ≠ .gt
        rw [Std.OrientedCmp.lt_of_gt hgt]
        decide
      · exact Or.inl hgt⟩
  have htrans : IsTrans α le :=
    ⟨fun a b c hab hbc => Ordering.isLE_iff_ne_gt.mp
      (Std.TransCmp.isLE_trans (Ordering.isLE_iff_ne_gt.mpr hab) (Ordering.isLE_iff_ne_gt.mpr hbc))⟩
  have hsorted := List.pairwise_insertionSort le l
  have hmem := (List.mem_insertionSort le).mpr hy
  obtain ⟨rest, hrest⟩ := List.head?_eq_some_iff.mp h
  change l.insertionSort le = x :: rest at hrest
  rw [hrest] at hsorted hmem
  rcases List.mem_cons.mp hmem with rfl | hin
  · have hself : cmp (f y) (f y) = .eq := Std.ReflCmp.compare_self
    rw [hself]
    decide
  · exact List.rel_of_pairwise_cons hsorted hin

/-! ### Sorts of joined lists -/

/-- Behind elements that precede it an element is inserted into the rest. -/
theorem orderedInsert_of_split {b : α} {T D : List α} (hT : ∀ c ∈ T, ¬ r b c) (hD : ∀ c ∈ D, r b c) :
    (T ++ D).orderedInsert r b = T ++ b :: D := by
  induction T with
  | nil =>
    cases D with
    | nil => rfl
    | cons d D => exact List.orderedInsert_cons_of_le r D (hD d List.mem_cons_self)
  | cons c T ih =>
    rw [List.cons_append, List.orderedInsert_cons, if_neg (hT c List.mem_cons_self),
      ih fun d hd => hT d (List.mem_cons_of_mem _ hd)]
    rfl

/-- An element is inserted in front of elements that need not precede it. -/
theorem orderedInsert_append {b : α} {l m : List α} (hm : ∀ c ∈ m, r b c) :
    (l ++ m).orderedInsert r b = l.orderedInsert r b ++ m := by
  induction l with
  | nil =>
    cases m with
    | nil => rfl
    | cons c m => exact List.orderedInsert_cons_of_le r m (hm c List.mem_cons_self)
  | cons c l ih =>
    rw [List.cons_append, List.orderedInsert_cons, List.orderedInsert_cons, ih]
    split_ifs <;> rfl

/-- Where no element of the second list has to precede one of the first, each is sorted for
itself. -/
theorem insertionSort_append {l m : List α} (h : ∀ a ∈ l, ∀ b ∈ m, r a b) :
    (l ++ m).insertionSort r = l.insertionSort r ++ m.insertionSort r := by
  induction l with
  | nil => rfl
  | cons a l ih =>
    rw [List.cons_append, List.insertionSort_cons, List.insertionSort_cons,
      ih fun b hb => h b (List.mem_cons_of_mem _ hb), orderedInsert_append]
    intro c hc
    exact h a List.mem_cons_self c ((List.mem_insertionSort r).mp hc)

/-! ### Places -/

variable [IsTrans α r]

/-- **An insertion** into a sorted list splits it where the new element goes first. -/
theorem orderedInsert_split (b : α) {l : List α} (hl : l.Pairwise r) :
    ∃ T D, l.orderedInsert r b = T ++ b :: D ∧ l = T ++ D ∧ (∀ c ∈ T, ¬ r b c) ∧
      ∀ c ∈ D, r b c := by
  induction l with
  | nil => exact ⟨[], [], rfl, rfl, fun c hc => absurd hc List.not_mem_nil,
      fun c hc => absurd hc List.not_mem_nil⟩
  | cons c l ih =>
    obtain ⟨hc, hl⟩ := List.pairwise_cons.mp hl
    rw [List.orderedInsert_cons]
    by_cases hbc : r b c
    · rw [if_pos hbc]
      refine ⟨[], c :: l, rfl, rfl, fun d hd => absurd hd List.not_mem_nil, fun d hd => ?_⟩
      rcases List.mem_cons.mp hd with rfl | hd
      · exact hbc
      · exact IsTrans.trans _ _ _ hbc (hc d hd)
    · rw [if_neg hbc]
      obtain ⟨T, D, hinsert, hsplit, hT, hD⟩ := ih hl
      refine ⟨c :: T, D, by rw [hinsert]; rfl, by rw [hsplit]; rfl, fun d hd => ?_, hD⟩
      rcases List.mem_cons.mp hd with rfl | hd
      · exact hbc
      · exact hT d hd

variable [Std.Total r]

/-- The sort of a list with a new first element. -/
theorem insertionSort_cons_split (b : α) (l : List α) :
    ∃ T D, (b :: l).insertionSort r = T ++ b :: D ∧ l.insertionSort r = T ++ D ∧
      (∀ c ∈ T, ¬ r b c) ∧ (∀ c ∈ D, r b c) ∧ T.length = rank r [] b l := by
  obtain ⟨T, D, hinsert, hsplit, hT, hD⟩ :=
    orderedInsert_split b (List.pairwise_insertionSort r l)
  refine ⟨T, D, hinsert, hsplit, hT, hD, ?_⟩
  have hcount := (List.perm_insertionSort r l).countP_eq (fun c => !decide (r b c))
  have hall : T.countP (fun c => !decide (r b c)) = T.length :=
    List.countP_eq_length.mpr fun c hc => by simp [hT c hc]
  have hnone : D.countP (fun c => !decide (r b c)) = 0 :=
    List.countP_eq_zero.mpr fun c hc => by simp [hD c hc]
  rw [hsplit, List.countP_append, hall, hnone] at hcount
  unfold rank
  rw [List.countP_nil]
  omega

/-- **Sorted places**: an element is sorted to the place that its rank says. -/
theorem insertionSort_split (before : List α) (x : α) (after : List α) :
    ∃ A B, (before ++ x :: after).insertionSort r = A ++ x :: B ∧
      A.length = rank r before x after := by
  induction before with
  | nil =>
    obtain ⟨T, D, hsort, -, -, -, hlength⟩ := insertionSort_cons_split (r := r) x after
    exact ⟨T, D, hsort, hlength⟩
  | cons b before ih =>
    obtain ⟨A, B, hsort, hlength⟩ := ih
    obtain ⟨T, D, hinsert, hsplit, hT, hD, -⟩ :=
      insertionSort_cons_split (r := r) b (before ++ x :: after)
    rw [hsort] at hsplit
    rcases List.append_eq_append_iff.mp hsplit with ⟨T', hT', hrest⟩ | ⟨D', hA, hrest⟩
    · cases T' with
      | nil =>
        -- `x` is the first element behind the new one
        rw [List.nil_append] at hrest
        subst hrest
        have hbx : r b x := hD x List.mem_cons_self
        refine ⟨T ++ [b], B, ?_, ?_⟩
        · rw [List.cons_append, hinsert]
          simp
        · rw [rank_cons_of_rel hbx, ← hlength, hT']
          simp
      | cons y T' =>
        obtain ⟨rfl, hB⟩ := List.cons.inj hrest
        have hbx : ¬ r b x := hT x (by rw [hT']; simp)
        refine ⟨A, T' ++ b :: D, ?_, ?_⟩
        · rw [List.cons_append, hinsert, hT']
          simp
        · rw [rank_cons_of_not_rel hbx, hlength]
    · have hbx : r b x := hD x (by rw [hrest]; simp)
      refine ⟨T ++ b :: D', B, ?_, ?_⟩
      · rw [List.cons_append, hinsert, hrest]
        simp
      · rw [rank_cons_of_rel hbx, ← hlength, hA]
        simp
        omega

/-- Every place of the sorted list is the one of an element. -/
theorem exists_split_of_insertionSort {l A B : List α} {x : α}
    (h : l.insertionSort r = A ++ x :: B) :
    ∃ before after, l = before ++ x :: after ∧ A.length = rank r before x after := by
  induction l generalizing A B with
  | nil => simp at h
  | cons b l ih =>
    obtain ⟨T, D, hinsert, hsplit, hT, hD, hlength⟩ := insertionSort_cons_split (r := r) b l
    rw [hinsert] at h
    rcases List.append_eq_append_iff.mp h with ⟨A', hA, hrest⟩ | ⟨T', hT', hrest⟩
    · cases A' with
      | nil =>
        obtain ⟨rfl, -⟩ := List.cons.inj hrest
        rw [List.append_nil] at hA
        exact ⟨[], l, rfl, by rw [hA, hlength]⟩
      | cons y A' =>
        obtain ⟨rfl, hD'⟩ := List.cons.inj hrest
        have hbx : r b x := hD x (by rw [hD']; simp)
        obtain ⟨before, after, hl, hcount⟩ := ih (A := T ++ A') (B := B) (by rw [hsplit, hD']; simp)
        refine ⟨b :: before, after, by rw [hl]; rfl, ?_⟩
        rw [rank_cons_of_rel hbx, ← hcount, hA]
        simp
        omega
    · cases T' with
      | nil =>
        obtain ⟨rfl, -⟩ := List.cons.inj hrest
        rw [List.append_nil] at hT'
        exact ⟨[], l, rfl, by rw [← hT', hlength]⟩
      | cons y T' =>
        obtain ⟨rfl, hB⟩ := List.cons.inj hrest
        have hbx : ¬ r b x := hT x (by rw [hT']; simp)
        obtain ⟨before, after, hl, hcount⟩ := ih (A := A) (B := T' ++ D) (by rw [hsplit, hT']; simp)
        refine ⟨b :: before, after, by rw [hl]; rfl, ?_⟩
        rw [rank_cons_of_not_rel hbx, hcount]

/-! ### Parts of a sorted list -/

/-- **A sort keeps the order of a selection**: selecting and sorting can be exchanged. -/
theorem filter_insertionSort (p : α → Bool) (l : List α) :
    (l.insertionSort r).filter p = (l.filter p).insertionSort r := by
  induction l with
  | nil => rfl
  | cons a l ih =>
    obtain ⟨T, D, hinsert, hsplit, hT, hD⟩ :=
      orderedInsert_split a (List.pairwise_insertionSort r l)
    rw [hsplit, List.filter_append] at ih
    rw [List.insertionSort_cons, hinsert, List.filter_append, List.filter_cons, List.filter_cons]
    by_cases hp : p a = true
    · rw [if_pos hp, if_pos hp, List.insertionSort_cons, ← ih, orderedInsert_of_split]
      · exact fun c hc => hT c (List.mem_filter.mp hc).1
      · exact fun c hc => hD c (List.mem_filter.mp hc).1
    · rw [if_neg hp, if_neg hp, ← ih]

/-- **A sort is stable**: where two elements need not be exchanged, what held of them in the list
holds of them in the sorted list. -/
theorem pairwise_insertionSort_stable {s : α → α → Prop} {l : List α} (h : l.Pairwise s) :
    (l.insertionSort r).Pairwise fun a b => r b a → s a b := by
  induction l with
  | nil => exact List.Pairwise.nil
  | cons a l ih =>
    obtain ⟨ha, hl⟩ := List.pairwise_cons.mp h
    obtain ⟨T, D, hinsert, hsplit, hT, hD⟩ :=
      orderedInsert_split a (List.pairwise_insertionSort r l)
    have hsorted := ih hl
    have hmem : ∀ c ∈ D, c ∈ l := fun c hc =>
      (List.mem_insertionSort r).mp (by rw [hsplit]; exact List.mem_append_right _ hc)
    rw [hsplit] at hsorted
    obtain ⟨hbefore, hbehind, hcross⟩ := List.pairwise_append.mp hsorted
    rw [List.insertionSort_cons, hinsert]
    refine List.pairwise_append.mpr ⟨hbefore, List.pairwise_cons.mpr ⟨?_, hbehind⟩, ?_⟩
    · exact fun c hc _ => ha c (hmem c hc)
    · intro c hc d hd
      rcases List.mem_cons.mp hd with rfl | hd
      · exact fun hdc => absurd hdc (hT c hc)
      · exact hcross c hc d hd

/-- A list in which no element of one kind has to precede one of the other kind is sorted by
sorting each kind for itself. -/
theorem insertionSort_eq_append {p : α → Bool} {l : List α}
    (h : l.Pairwise fun a b => (p a = true → p b = false → r a b) ∧
      (p a = false → p b = true → ¬ r a b)) :
    l.insertionSort r =
      (l.filter p).insertionSort r ++ (l.filter fun a => !p a).insertionSort r := by
  induction l with
  | nil => rfl
  | cons a l ih =>
    obtain ⟨ha, hl⟩ := List.pairwise_cons.mp h
    rw [List.insertionSort_cons, ih hl]
    cases hp : p a with
    | true =>
      rw [List.filter_cons_of_pos hp, List.filter_cons_of_neg (by simp [hp]),
        List.insertionSort_cons, orderedInsert_append]
      intro c hc
      obtain ⟨hmem, hc⟩ := List.mem_filter.mp ((List.mem_insertionSort r).mp hc)
      exact (ha c hmem).1 hp (by simpa using hc)
    | false =>
      rw [List.filter_cons_of_neg (by simp [hp]), List.filter_cons_of_pos (by simp [hp]),
        List.insertionSort_cons]
      obtain ⟨T, D, hinsert, hsplit, hT, hD⟩ :=
        orderedInsert_split a (List.pairwise_insertionSort r (l.filter fun b => !p b))
      rw [hinsert, hsplit, ← List.append_assoc, orderedInsert_of_split, List.append_assoc]
      · intro c hc
        rcases List.mem_append.mp hc with hc | hc
        · obtain ⟨hmem, hc⟩ := List.mem_filter.mp ((List.mem_insertionSort r).mp hc)
          exact (ha c hmem).2 hp hc
        · exact hT c hc
      · exact hD

/-! ### Pages -/

/-- **The first places** of the sorted list hold the elements of a low rank. -/
theorem exists_mem_take_iff {p : α → Prop} {n : Nat} {l : List α} :
    (∃ x ∈ (l.insertionSort r).take n, p x) ↔
      ∃ before x after, l = before ++ x :: after ∧ p x ∧ rank r before x after < n := by
  constructor
  · rintro ⟨x, hx, hp⟩
    obtain ⟨A, B, hsplit⟩ := List.append_of_mem hx
    have hsort : l.insertionSort r = A ++ x :: (B ++ (l.insertionSort r).drop n) := by
      conv_lhs => rw [← List.take_append_drop n (l.insertionSort r), hsplit]
      simp
    obtain ⟨before, after, hl, hrank⟩ := exists_split_of_insertionSort hsort
    refine ⟨before, x, after, hl, hp, ?_⟩
    have hlength := congrArg List.length hsplit
    rw [List.length_take, List.length_append, List.length_cons] at hlength
    omega
  · rintro ⟨before, x, after, rfl, hp, hrank⟩
    obtain ⟨A, B, hsort, hlength⟩ := insertionSort_split (r := r) before x after
    refine ⟨x, ?_, hp⟩
    rw [hsort, List.take_append, List.take_of_length_le (by omega)]
    obtain ⟨k, hk⟩ := Nat.exists_eq_add_of_lt (show A.length < n by omega)
    rw [show n - A.length = k + 1 by omega]
    simp

/-- The later places of the sorted list hold the elements of a high rank. -/
theorem exists_mem_drop_iff {p : α → Prop} {n : Nat} {l : List α} :
    (∃ x ∈ (l.insertionSort r).drop n, p x) ↔
      ∃ before x after, l = before ++ x :: after ∧ p x ∧ n ≤ rank r before x after := by
  constructor
  · rintro ⟨x, hx, hp⟩
    obtain ⟨A, B, hsplit⟩ := List.append_of_mem hx
    have hsort : l.insertionSort r = ((l.insertionSort r).take n ++ A) ++ x :: B := by
      conv_lhs => rw [← List.take_append_drop n (l.insertionSort r), hsplit]
      simp
    obtain ⟨before, after, hl, hrank⟩ := exists_split_of_insertionSort hsort
    refine ⟨before, x, after, hl, hp, ?_⟩
    have hlong : n ≤ (l.insertionSort r).length := by
      by_contra hshort
      rw [List.drop_of_length_le (by omega)] at hx
      exact absurd hx List.not_mem_nil
    rw [← hrank, List.length_append, List.length_take]
    omega
  · rintro ⟨before, x, after, rfl, hp, hrank⟩
    obtain ⟨A, B, hsort, hlength⟩ := insertionSort_split (r := r) before x after
    refine ⟨x, ?_, hp⟩
    rw [hsort, List.drop_append_of_le_length (by omega)]
    exact List.mem_append_right _ List.mem_cons_self

/-- Where no element occurs twice, a place among the first ones is one of low rank. -/
theorem mem_take_insertionSort_iff {before after : List α} {x : α} {n : Nat}
    (hnodup : (before ++ x :: after).Nodup) :
    x ∈ ((before ++ x :: after).insertionSort r).take n ↔ rank r before x after < n := by
  have hfirst := exists_mem_take_iff (r := r) (p := (· = x)) (n := n) (l := before ++ x :: after)
  have hmem : x ∈ ((before ++ x :: after).insertionSort r).take n ↔
      ∃ y ∈ ((before ++ x :: after).insertionSort r).take n, y = x := by simp
  rw [hmem, hfirst]
  constructor
  · rintro ⟨before', y, after', hsplit, rfl, hrank⟩
    have hfresh : y ∉ before ∧ y ∉ after := by
      have hparts := List.nodup_append.mp hnodup
      exact ⟨fun hy => hparts.2.2 y hy y List.mem_cons_self rfl,
        (List.nodup_cons.mp hparts.2.1).1⟩
    obtain ⟨rfl, -, rfl⟩ := (List.append_cons_inj_of_notMem hfresh.1 hfresh.2).mp hsplit
    exact hrank
  · intro hrank
    exact ⟨before, x, after, rfl, rfl, hrank⟩

/-- **The first match** of a sorted list precedes every other match. -/
theorem find?_insertionSort_eq_some {p : α → Bool} {l : List α} {a : α}
    (h : (l.insertionSort r).find? p = some a) :
    a ∈ l ∧ p a = true ∧ ∀ b ∈ l, p b = true → r a b := by
  obtain ⟨hmatch, before, after, hsplit, hbefore⟩ := List.find?_eq_some_iff_append.mp h
  have hsorted := List.pairwise_insertionSort r l
  have hperm : ∀ {b}, b ∈ before ++ a :: after ↔ b ∈ l := by
    intro b
    rw [← hsplit]
    exact List.mem_insertionSort r
  rw [hsplit] at hsorted
  refine ⟨hperm.mp (List.mem_append_right _ List.mem_cons_self), hmatch, fun b hb hmatchb => ?_⟩
  rcases List.mem_append.mp (hperm.mpr hb) with hb | hb
  · have hnot := hbefore b hb
    rw [hmatchb] at hnot
    cases hnot
  · rcases List.mem_cons.mp hb with rfl | hb
    · exact (Std.Total.total (r := r) b b).elim id id
    · exact List.rel_of_pairwise_cons (List.pairwise_append.mp hsorted).2.1 hb

end Sorting
