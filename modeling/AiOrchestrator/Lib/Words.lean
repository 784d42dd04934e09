import Mathlib.Data.List.DropRight
import AiOrchestrator.Lib.Segments

/-!
# Words and their separators

A program that makes a name of a free text often replaces every run of other characters by one
separator (`collapse`) and takes the separators off both ends (`strip`). What is left are the
**words** of the text, the maximal runs of characters that are kept, with one separator between
them: `strip_collapse`. Words do not contain the separator, so they can be read off again
(`intercalate_words_injective`): two texts give the same name exactly where they have the same
words.
-/

namespace Words

variable {α : Type} (keep : α → Bool) (sep : α)

/-- Every run of elements that are not kept is replaced by one separator; `inRun` is whether
the element before was not kept. -/
def collapse (inRun : Bool) : List α → List α
  | [] => []
  | c :: cs =>
    if keep c then c :: collapse false cs
    else if inRun then collapse true cs
    else sep :: collapse true cs

/-- The separators are taken off both ends. -/
def strip [DecidableEq α] (cs : List α) : List α :=
  (cs.dropWhile (· == sep)).rdropWhile (· == sep)

/-- A word before others, if it is one. -/
def flush (run : List α) (later : List (List α)) : List (List α) :=
  if run.isEmpty then later else run :: later

/-- The run of kept elements at the head, and the words after it. -/
def runs : List α → List α × List (List α)
  | [] => ([], [])
  | c :: cs =>
    if keep c then (c :: (runs cs).1, (runs cs).2) else ([], flush (runs cs).1 (runs cs).2)

/-- **The words** of a list: its maximal runs of kept elements. -/
def words (cs : List α) : List (List α) := flush (runs keep cs).1 (runs keep cs).2

/-- The separator that is left at the end of the list. -/
def trailing (cs : List α) : List α :=
  match cs.getLast? with
  | none => []
  | some c => if keep c then [] else [sep]

variable {keep sep}

/-! ### What the words are made of -/

theorem mem_flush {run word : List α} {later : List (List α)} (h : word ∈ flush run later) :
    (word = run ∧ word ≠ []) ∨ word ∈ later := by
  unfold flush at h
  split at h
  · exact .inr h
  · next hrun =>
    rcases List.mem_cons.mp h with rfl | hlater
    · exact .inl ⟨rfl, fun hnil => hrun (List.isEmpty_iff.mpr hnil)⟩
    · exact .inr hlater

theorem runs_spec (cs : List α) :
    (∀ c ∈ (runs keep cs).1, keep c = true) ∧
      ∀ word ∈ (runs keep cs).2, word ≠ [] ∧ ∀ c ∈ word, keep c = true := by
  induction cs with
  | nil => exact ⟨nofun, nofun⟩
  | cons c cs ih =>
    rw [runs]
    split
    · next hkeep => exact ⟨List.forall_mem_cons.mpr ⟨hkeep, ih.1⟩, ih.2⟩
    · refine ⟨nofun, fun word hword => ?_⟩
      rcases mem_flush hword with ⟨rfl, hne⟩ | hlater
      · exact ⟨hne, ih.1⟩
      · exact ih.2 word hlater

/-- A word is not empty, and all its elements are kept. -/
theorem words_spec {cs word : List α} (h : word ∈ words keep cs) :
    word ≠ [] ∧ ∀ c ∈ word, keep c = true := by
  rcases mem_flush h with ⟨rfl, hne⟩ | hlater
  · exact ⟨hne, (runs_spec cs).1⟩
  · exact (runs_spec cs).2 word hlater

/-! ### The collapsed list -/

theorem trailing_cons_cons (c d : α) (cs : List α) :
    trailing keep sep (c :: d :: cs) = trailing keep sep (d :: cs) := by
  unfold trailing
  rw [List.getLast?_cons_cons]

/-- What `collapse` makes of a list: its first run, the later words with a separator before each,
and a separator for what comes after the last word. -/
theorem collapse_spec (cs : List α) :
    collapse keep sep false cs =
        (runs keep cs).1 ++ (runs keep cs).2.flatMap (sep :: ·) ++ trailing keep sep cs ∧
      ∀ c, keep c = false → sep :: collapse keep sep true cs =
        (flush (runs keep cs).1 (runs keep cs).2).flatMap (sep :: ·) ++
          trailing keep sep (c :: cs) := by
  induction cs with
  | nil =>
    refine ⟨rfl, fun c hc => ?_⟩
    simp [collapse, runs, flush, trailing, hc]
  | cons d cs ih =>
    obtain ⟨ihfalse, ihtrue⟩ := ih
    cases hkeep : keep d with
    | true =>
      have hfalse : collapse keep sep false (d :: cs) = (runs keep (d :: cs)).1 ++
          (runs keep (d :: cs)).2.flatMap (sep :: ·) ++ trailing keep sep (d :: cs) := by
        have htrailing : trailing keep sep (d :: cs) = trailing keep sep cs := by
          cases cs with
          | nil => simp [trailing, hkeep]
          | cons e cs => exact trailing_cons_cons d e cs
        rw [collapse, if_pos hkeep, ihfalse, runs, if_pos hkeep, htrailing]
        rfl
      refine ⟨hfalse, fun c hc => ?_⟩
      have hsame : collapse keep sep true (d :: cs) = collapse keep sep false (d :: cs) := by
        rw [collapse, collapse, if_pos hkeep, if_pos hkeep]
      have hflush : flush (runs keep (d :: cs)).1 (runs keep (d :: cs)).2 =
          (runs keep (d :: cs)).1 :: (runs keep (d :: cs)).2 := by
        rw [runs, if_pos hkeep]
        rfl
      rw [hsame, hfalse, hflush, trailing_cons_cons, List.flatMap_cons]
      simp
    | false =>
      have hne : ¬ keep d = true := ne_true_of_eq_false hkeep
      have hrest := ihtrue d hkeep
      refine ⟨?_, fun c hc => ?_⟩
      · rw [collapse, if_neg hne, if_neg Bool.false_ne_true, hrest, runs, if_neg hne]
        rfl
      · rw [collapse, if_neg hne, if_pos rfl, hrest, runs, if_neg hne, trailing_cons_cons]
        rfl

/-! ### Separators between the words -/

theorem intercalate_cons (word : List α) (others : List (List α)) :
    [sep].intercalate (word :: others) = word ++ others.flatMap (sep :: ·) := by
  induction others generalizing word with
  | nil => simp
  | cons other others ih =>
    rw [List.intercalate_cons_cons, ih]
    simp

/-- Two lists of words, joined. -/
theorem intercalate_append {front rear : List (List α)} (hfront : front ≠ []) (hrear : rear ≠ []) :
    [sep].intercalate (front ++ rear) =
      [sep].intercalate front ++ sep :: [sep].intercalate rear := by
  obtain ⟨word, others, rfl⟩ := List.exists_cons_of_ne_nil hfront
  obtain ⟨word', others', rfl⟩ := List.exists_cons_of_ne_nil hrear
  rw [List.cons_append, intercalate_cons, intercalate_cons, intercalate_cons]
  simp

section Strip

variable [DecidableEq α]

/-- The words with separators between them end with a kept element. -/
theorem rdropWhile_intercalate (hsep : keep sep = false) {ws : List (List α)}
    (hwords : ∀ word ∈ ws, word ≠ [] ∧ ∀ c ∈ word, keep c = true) :
    ([sep].intercalate ws).rdropWhile (· == sep) = [sep].intercalate ws := by
  rcases List.eq_nil_or_concat ws with rfl | ⟨front, word, rfl⟩
  · rfl
  · rw [List.concat_eq_append] at hwords ⊢
    obtain ⟨hne, hkeep⟩ := hwords word (by simp)
    obtain ⟨start, c, rfl⟩ := (List.eq_nil_or_concat word).resolve_left hne
    have hc : ¬ (c == sep) = true := by
      intro heq
      have hkept := hkeep c (by simp)
      rw [eq_of_beq heq, hsep] at hkept
      cases hkept
    have hend : ∃ rest, [sep].intercalate (front ++ [start.concat c]) = rest ++ [c] := by
      by_cases hfront : front = []
      · subst hfront
        exact ⟨start, by simp⟩
      · refine ⟨[sep].intercalate front ++ sep :: start, ?_⟩
        rw [intercalate_append hfront (List.cons_ne_nil _ _)]
        simp
    obtain ⟨rest, hrest⟩ := hend
    rw [hrest]
    exact List.rdropWhile_concat_neg _ _ _ hc

theorem rdropWhile_trailing (cs : List α) :
    (trailing keep sep cs).rdropWhile (· == sep) = [] := by
  unfold trailing
  split
  · rfl
  · split <;> simp

/-- The separators before the first word are taken off. -/
theorem dropWhile_collapse (hsep : keep sep = false) (cs : List α) :
    (collapse keep sep false cs).dropWhile (· == sep) =
      [sep].intercalate (words keep cs) ++
        (if words keep cs = [] then [] else trailing keep sep cs) := by
  have hfirst {c : α} (hc : keep c = true) (rest : List α) :
      (c :: rest).dropWhile (· == sep) = c :: rest := by
    refine List.dropWhile_cons_of_neg fun heq => ?_
    rw [eq_of_beq heq, hsep] at hc
    cases hc
  obtain ⟨hrun, hlater⟩ : (∀ c ∈ (runs keep cs).1, keep c = true) ∧
      ∀ word ∈ (runs keep cs).2, word ≠ [] ∧ ∀ c ∈ word, keep c = true := runs_spec cs
  rw [(collapse_spec cs).1, words]
  cases hruns : (runs keep cs).1 with
  | cons c run =>
    -- the list begins with a word
    have hc : keep c = true := hrun c (by rw [hruns]; exact List.mem_cons_self)
    have hflush : flush (c :: run) (runs keep cs).2 = (c :: run) :: (runs keep cs).2 := rfl
    rw [hflush, intercalate_cons, if_neg (List.cons_ne_nil _ _)]
    exact hfirst hc _
  | nil =>
    have hflush : flush ([] : List α) (runs keep cs).2 = (runs keep cs).2 := rfl
    rw [hflush]
    cases hwords : (runs keep cs).2 with
    | nil =>
      -- there is no word at all
      have htrailing : (trailing keep sep cs).dropWhile (· == sep) = [] := by
        unfold trailing
        split
        · rfl
        · split <;> simp
      simpa using htrailing
    | cons word others =>
      obtain ⟨hne, hkept⟩ := hlater word (by rw [hwords]; exact List.mem_cons_self)
      obtain ⟨c, rest, rfl⟩ := List.exists_cons_of_ne_nil hne
      rw [intercalate_cons, if_neg (List.cons_ne_nil _ _)]
      have hdrop := hfirst (hkept c List.mem_cons_self)
        (rest ++ others.flatMap (sep :: ·) ++ trailing keep sep cs)
      simpa using hdrop

/-- **The name of a text** is its words, with one separator between them. -/
theorem strip_collapse (hsep : keep sep = false) (cs : List α) :
    strip sep (collapse keep sep false cs) = [sep].intercalate (words keep cs) := by
  have hwords : ([sep].intercalate (words keep cs)).rdropWhile (· == sep) =
      [sep].intercalate (words keep cs) :=
    rdropWhile_intercalate hsep fun _ => words_spec
  rw [strip, dropWhile_collapse hsep, Segments.rdropWhile_append]
  split
  · rw [if_pos]
    · exact hwords
    · rfl
  · rw [if_pos (rdropWhile_trailing cs)]
    exact hwords

/-- **Names tell words apart**: lists of words with the same name are the same. -/
theorem intercalate_injective (hsep : keep sep = false) {ws ws' : List (List α)}
    (hws : ∀ word ∈ ws, word ≠ [] ∧ ∀ c ∈ word, keep c = true)
    (hws' : ∀ word ∈ ws', word ≠ [] ∧ ∀ c ∈ word, keep c = true)
    (h : [sep].intercalate ws = [sep].intercalate ws') : ws = ws' := by
  have hmem {ws : List (List α)} (hws : ∀ word ∈ ws, word ≠ [] ∧ ∀ c ∈ word, keep c = true) :
      ∀ word ∈ ws, sep ∉ word := by
    intro word hword hin
    have hkept := (hws word hword).2 sep hin
    rw [hsep] at hkept
    cases hkept
  have hnil {ws : List (List α)} (hws : ∀ word ∈ ws, word ≠ [] ∧ ∀ c ∈ word, keep c = true)
      (hempty : [sep].intercalate ws = []) : ws = [] := by
    cases ws with
    | nil => rfl
    | cons word others =>
      rw [intercalate_cons, List.append_eq_nil_iff] at hempty
      exact absurd hempty.1 (hws word List.mem_cons_self).1
  by_cases hempty : [sep].intercalate ws = []
  · rw [hnil hws hempty, hnil hws' (h ▸ hempty)]
  · have hne : ws ≠ [] := by
      rintro rfl
      exact hempty rfl
    have hne' : ws' ≠ [] := by
      rintro rfl
      exact hempty h
    rw [← List.splitOn_intercalate sep (hmem hws) hne, h,
      List.splitOn_intercalate sep (hmem hws') hne']

end Strip

end Words
