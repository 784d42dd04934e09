import AiOrchestrator.Lib.Text
import Mathlib.Data.List.TakeWhile

/-!
# Texts made of pieces

A text that is joined with a separator and split at it again gives its pieces back where none of them
contains the separator (`splitOnChar_intercalate`), and what is split off never does
(`sep_notMem_of_mem_splitOnChar`). Trimming a piece takes white space off its ends only, so a text that begins
and ends with other characters stays (`trim_append_append`).
-/

namespace Text

/-! ### Splitting -/

theorem splitOnChar_ne_nil (sep : Char) (s : String) : splitOnChar sep s ≠ [] := fun h =>
  List.splitOn_ne_nil sep s.toList (List.map_eq_nil_iff.mp h)

theorem toList_splitOnChar (sep : Char) (s : String) :
    (splitOnChar sep s).map String.toList = s.toList.splitOn sep := by
  rw [splitOnChar, List.map_map]
  exact (List.map_congr_left fun cs _ => String.toList_ofList).trans (List.map_id _)

theorem map_toList_injective : Function.Injective (List.map String.toList) :=
  List.map_injective_iff.mpr fun _ _ h => String.toList_inj.mp h

/-- A piece is made of characters of the text other than the separator. -/
theorem of_mem_splitOn {sep : Char} {cs p : List Char} (h : p ∈ cs.splitOn sep) :
    sep ∉ p ∧ ∀ c ∈ p, c ∈ cs := by
  induction cs generalizing p with
  | nil =>
    rw [List.splitOn_nil, List.mem_singleton] at h
    rw [h]
    exact ⟨List.not_mem_nil, fun _ hc => hc⟩
  | cons d cs ih =>
    rw [List.splitOn_cons_eq_if_modifyHead] at h
    obtain ⟨first, rest, hrest⟩ := List.exists_cons_of_ne_nil (List.splitOn_ne_nil sep cs)
    rw [hrest] at ih h
    have hmore : ∀ {q}, q ∈ first :: rest → sep ∉ q ∧ ∀ c ∈ q, c ∈ d :: cs := fun hq =>
      ⟨(ih hq).1, fun c hc => List.mem_cons_of_mem _ ((ih hq).2 c hc)⟩
    split_ifs at h with hd
    · rcases List.mem_cons.mp h with rfl | h
      · exact ⟨List.not_mem_nil, fun _ hc => absurd hc List.not_mem_nil⟩
      · exact hmore h
    · rcases List.mem_cons.mp h with rfl | h
      · obtain ⟨hsep, hsub⟩ := hmore List.mem_cons_self
        refine ⟨fun hmem => ?_, fun c hc => ?_⟩
        · rcases List.mem_cons.mp hmem with rfl | hmem
          · exact hd (beq_self_eq_true _)
          · exact hsep hmem
        · rcases List.mem_cons.mp hc with rfl | hc
          · exact List.mem_cons_self
          · exact hsub c hc
      · exact hmore (List.mem_cons_of_mem _ h)

theorem sep_notMem_of_mem_splitOnChar {sep : Char} {s piece : String}
    (h : piece ∈ splitOnChar sep s) : sep ∉ piece.toList := by
  obtain ⟨p, hp, rfl⟩ := List.mem_map.mp h
  rw [String.toList_ofList]
  exact (of_mem_splitOn hp).1

theorem mem_of_mem_splitOnChar {sep c : Char} {s piece : String} (h : piece ∈ splitOnChar sep s)
    (hc : c ∈ piece.toList) : c ∈ s.toList := by
  obtain ⟨p, hp, rfl⟩ := List.mem_map.mp h
  rw [String.toList_ofList] at hc
  exact (of_mem_splitOn hp).2 c hc

/-- **Pieces without the separator** are split off as they were joined. -/
theorem splitOnChar_intercalate {sep : Char} {pieces : List String} (hne : pieces ≠ [])
    (h : ∀ piece ∈ pieces, sep ∉ piece.toList) :
    splitOnChar sep (String.intercalate (String.singleton sep) pieces) = pieces := by
  apply map_toList_injective
  rw [toList_splitOnChar, String.toList_intercalate, String.toList_singleton]
  refine List.splitOn_intercalate sep (fun cs hcs => ?_) (by simpa using hne)
  obtain ⟨piece, hpiece, rfl⟩ := List.mem_map.mp hcs
  exact h piece hpiece

theorem intercalate_splitOnChar (sep : Char) (s : String) :
    String.intercalate (String.singleton sep) (splitOnChar sep s) = s := by
  rw [← String.toList_inj, String.toList_intercalate, toList_splitOnChar, String.toList_singleton]
  exact List.intercalate_splitOn sep

/-- A text is one piece where the separator does not occur. -/
theorem splitOnChar_eq_singleton {sep : Char} {s : String} (h : sep ∉ s.toList) :
    splitOnChar sep s = [s] := by
  apply map_toList_injective
  rw [toList_splitOnChar, List.splitOn_eq_singleton h]
  rfl

/-- A text is two pieces where the separator occurs once. -/
theorem splitOnChar_eq_pair_iff {sep : Char} {s a b : String} :
    splitOnChar sep s = [a, b] ↔
      s = a ++ String.singleton sep ++ b ∧ sep ∉ a.toList ∧ sep ∉ b.toList := by
  constructor
  · intro h
    have hs := intercalate_splitOnChar sep s
    rw [h] at hs
    refine ⟨?_, sep_notMem_of_mem_splitOnChar (h ▸ List.mem_cons_self),
      sep_notMem_of_mem_splitOnChar (h ▸ List.mem_cons_of_mem _ List.mem_cons_self)⟩
    rw [← hs, String.intercalate_cons_cons, String.intercalate_singleton]
  · rintro ⟨rfl, ha, hb⟩
    have hpieces : ∀ piece ∈ [a, b], sep ∉ piece.toList := by
      intro piece hpiece
      rcases List.mem_cons.mp hpiece with rfl | hpiece
      · exact ha
      · rw [List.mem_singleton.mp hpiece]
        exact hb
    have hjoin := splitOnChar_intercalate (List.cons_ne_nil _ _) hpieces
    rwa [String.intercalate_cons_cons, String.intercalate_singleton] at hjoin

/-! ### Trimming -/

/-- Neither the first nor the last character is white space. -/
def NoOuterSpace (cs : List Char) : Prop :=
  (∀ c ∈ cs.head?, isSpace c = false) ∧ ∀ c ∈ cs.getLast?, isSpace c = false

theorem head?_dropWhile_space (cs : List Char) :
    ∀ c ∈ (cs.dropWhile isSpace).head?, isSpace c = false := by
  induction cs with
  | nil => exact nofun
  | cons c cs ih =>
    rw [List.dropWhile_cons]
    split
    · exact ih
    · next hc =>
      rintro d ⟨⟩
      exact Bool.eq_false_iff.mpr hc

theorem dropWhile_space_eq_self {cs : List Char} (h : ∀ c ∈ cs.head?, isSpace c = false) :
    cs.dropWhile isSpace = cs := by
  cases cs with
  | nil => rfl
  | cons c cs => exact List.dropWhile_cons_of_neg (by simp [h c rfl])

theorem toList_trim (s : String) :
    (trim s).toList = ((s.toList.dropWhile isSpace).reverse.dropWhile isSpace).reverse :=
  String.toList_ofList

theorem trim_begins (s : String) : (trim s).toList <+: s.toList.dropWhile isSpace := by
  rw [toList_trim, ← List.reverse_suffix, List.reverse_reverse]
  exact List.dropWhile_suffix isSpace

theorem noOuterSpace_trim (s : String) : NoOuterSpace (trim s).toList := by
  constructor
  · intro c hc
    obtain ⟨rest, hrest⟩ := trim_begins s
    refine head?_dropWhile_space s.toList c ?_
    rw [← hrest, List.head?_append]
    simp [Option.mem_def.mp hc]
  · intro c hc
    rw [toList_trim, List.getLast?_reverse] at hc
    exact head?_dropWhile_space _ c hc

theorem trim_eq_self {s : String} (h : NoOuterSpace s.toList) : trim s = s := by
  rw [← String.toList_inj, toList_trim, dropWhile_space_eq_self h.1, dropWhile_space_eq_self,
    List.reverse_reverse]
  rw [List.head?_reverse]
  exact h.2

@[simp] theorem trim_trim (s : String) : trim (trim s) = trim s := trim_eq_self (noOuterSpace_trim s)

theorem mem_of_mem_trim {s : String} {c : Char} (h : c ∈ (trim s).toList) : c ∈ s.toList :=
  (List.dropWhile_suffix isSpace).subset ((trim_begins s).subset h)

/-- A text between two that are trimmed and not empty stays when it is trimmed. -/
theorem trim_append_append {first last : String} (mid : String) (hfirst : trim first = first)
    (hfirst' : first ≠ "") (hlast : trim last = last) (hlast' : last ≠ "") :
    trim (first ++ mid ++ last) = first ++ mid ++ last := by
  have houter := noOuterSpace_trim first
  have houter' := noOuterSpace_trim last
  rw [hfirst] at houter
  rw [hlast] at houter'
  have hne : first.toList ≠ [] := by simpa using hfirst'
  have hne' : last.toList ≠ [] := by simpa using hlast'
  refine trim_eq_self ⟨fun c hc => houter.1 c ?_, fun c hc => houter'.2 c ?_⟩
  · rw [String.toList_append, String.toList_append, List.append_assoc,
      List.head?_append_of_ne_nil _ hne] at hc
    exact hc
  · rw [String.toList_append, List.getLast?_append_of_ne_nil _ hne'] at hc
    exact hc

/-- A text of white space is trimmed to nothing. -/
theorem trim_eq_empty_iff {s : String} : trim s = "" ↔ ∀ c ∈ s.toList, isSpace c = true := by
  rw [← String.toList_inj, toList_trim, String.toList_empty, List.reverse_eq_nil_iff,
    List.dropWhile_eq_nil_iff]
  constructor
  · intro h
    by_contra hnot
    have hsome : s.toList.dropWhile isSpace ≠ [] := fun hnil =>
      hnot (List.dropWhile_eq_nil_iff.mp hnil)
    obtain ⟨c, cs, hcs⟩ := List.exists_cons_of_ne_nil hsome
    have hfirst := head?_dropWhile_space s.toList c (by rw [hcs]; rfl)
    rw [h c (by rw [hcs]; simp)] at hfirst
    cases hfirst
  · intro h c hc
    exact h c ((List.dropWhile_suffix isSpace).subset (List.mem_reverse.mp hc))

end Text
