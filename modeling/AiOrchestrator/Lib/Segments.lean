import Mathlib.Data.List.DropRight
import Mathlib.Data.List.Infix
import AiOrchestrator.Lib.Text

/-!
# Segments between separators

A text is often a list of segments with a separator after each of them but the last: a path
with its slashes, an output with its lines. `Segments.joined` is that text, and
`splitOn_joined` its inverse where no segment contains the separator. `splitOn_prefix_iff` says
when the segments of one text are the first ones of another.

A program that wants to know whether a segment occurs in a text often searches the text for
the segment between two separators. `delimited_infix_joined_iff` says which segments such a
search finds: those that are neither the first nor the last. `suffix_joined_iff` and
`delimited_suffix_joined_iff` are the like for a search at the end of the text.
-/

namespace Segments

variable {α β : Type}

/-- Segments with a separator after each, and a last segment. -/
def joined (sep : α) (segments : List (List α)) (last : List α) : List α :=
  segments.flatMap (· ++ [sep]) ++ last

@[simp] theorem joined_nil (sep : α) (last : List α) : joined sep [] last = last := rfl

@[simp] theorem joined_cons (sep : α) (segment last : List α) (segments : List (List α)) :
    joined sep (segment :: segments) last = segment ++ sep :: joined sep segments last := by
  simp [joined]

theorem joined_append (sep : α) (front rear : List (List α)) (last : List α) :
    joined sep (front ++ rear) last = joined sep front [] ++ joined sep rear last := by
  simp [joined]

theorem joined_last_append (sep : α) (segments : List (List α)) (last more : List α) :
    joined sep segments (last ++ more) = joined sep segments last ++ more := by
  simp [joined]

/-- The last separator of a text. -/
theorem joined_concat (sep : α) (front : List (List α)) (segment last : List α) :
    joined sep (front ++ [segment]) last = joined sep front segment ++ sep :: last := by
  simp [joined]

/-- A translation of the elements that leaves the separator alone goes into the segments. -/
theorem flatMap_joined {f : α → List β} {sep : α} {sep' : β} (hsep : f sep = [sep'])
    (segments : List (List α)) (last : List α) :
    (joined sep segments last).flatMap f =
      joined sep' (segments.map (List.flatMap f)) (last.flatMap f) := by
  induction segments with
  | nil => rfl
  | cons segment segments ih => simp [hsep, ih]

/-- What is dropped at the end of two parts. -/
theorem rdropWhile_append (p : α → Bool) (front rear : List α) :
    (front ++ rear).rdropWhile p =
      if rear.rdropWhile p = [] then front.rdropWhile p else front ++ rear.rdropWhile p := by
  unfold List.rdropWhile
  rw [List.reverse_append, List.dropWhile_append]
  by_cases h : rear.reverse.dropWhile p = []
  · simp [h]
  · simp [h]

/-- What is dropped at the end is dropped from the last segment. -/
theorem rdropWhile_joined {p : α → Bool} {sep : α} (hsep : p sep = false)
    (segments : List (List α)) (last : List α) :
    (joined sep segments last).rdropWhile p = joined sep segments (last.rdropWhile p) := by
  induction last using List.reverseRecOn with
  | nil =>
    cases segments using List.reverseRecOn with
    | nil => rfl
    | append_singleton front segment =>
      rw [List.rdropWhile_nil, joined_concat]
      exact List.rdropWhile_concat_neg p _ _ (by simp [hsep])
  | append_singleton front c ih =>
    rw [joined_last_append]
    cases hc : p c with
    | true =>
      rw [List.rdropWhile_concat_pos p _ _ hc, List.rdropWhile_concat_pos p _ _ hc]
      exact ih
    | false =>
      rw [List.rdropWhile_concat_neg p _ _ (by simp [hc]),
        List.rdropWhile_concat_neg p _ _ (by simp [hc]), joined_last_append]

/-- The part after the last separator. -/
theorem last_eq_of_append_eq [DecidableEq α] {sep : α} {front front' last last' : List α}
    (hlast : sep ∉ last) (hlast' : sep ∉ last')
    (h : front ++ sep :: last = front' ++ sep :: last') : last = last' := by
  have hread : ∀ {front last : List α}, sep ∉ last →
      (front ++ sep :: last).reverse.takeWhile (· != sep) = last.reverse := by
    intro front last hnot
    have hall : ∀ c ∈ last.reverse, (c != sep) = true := by
      intro c hc
      exact bne_iff_ne.mpr fun heq => hnot (heq ▸ List.mem_reverse.mp hc)
    rw [List.reverse_append, List.reverse_cons, List.append_assoc,
      List.takeWhile_append_of_pos hall]
    simp
  have hsame : last.reverse = last'.reverse := by
    rw [← hread hlast, h, hread hlast']
  exact List.reverse_injective hsame

section Search

variable {sep : α} {segments : List (List α)} {last word : List α}

/-- The segments of a text that goes on after the last separator of a front. -/
theorem splitOn_joined_last [DecidableEq α] (hsegments : ∀ s ∈ segments, sep ∉ s) :
    (joined sep segments last).splitOn sep = segments ++ last.splitOn sep := by
  induction segments with
  | nil => rfl
  | cons segment segments ih =>
    have hrest := ih fun s hs => hsegments s (List.mem_cons_of_mem _ hs)
    rw [joined_cons, List.splitOn_append_cons_self_of_not_mem (hsegments _ List.mem_cons_self),
      hrest]
    rfl

theorem splitOn_joined [DecidableEq α] (hsegments : ∀ s ∈ segments, sep ∉ s)
    (hlast : sep ∉ last) :
    (joined sep segments last).splitOn sep = segments ++ [last] := by
  rw [splitOn_joined_last hsegments, List.splitOn_eq_singleton hlast]

theorem splitOn_append_of_not_mem [DecidableEq α] {front rear : List α} (hfront : sep ∉ front) :
    (front ++ rear).splitOn sep = (rear.splitOn sep).modifyHead (front ++ ·) := by
  induction front with
  | nil =>
    show rear.splitOn sep = (rear.splitOn sep).modifyHead id
    rw [List.modifyHead_id]
    rfl
  | cons c front ih =>
    obtain ⟨hc, hrest⟩ := not_or.mp fun h => hfront (List.mem_cons.mpr h)
    have hsep : (c == sep) = false := beq_false_of_ne (Ne.symm hc)
    rw [List.cons_append, List.splitOn_cons_eq_if_modifyHead, hsep, ih hrest,
      List.modifyHead_modifyHead]
    rfl

/-- What is dropped at the beginning of a text is dropped from its first segment. -/
theorem splitOn_dropWhile [DecidableEq α] {p : α → Bool} (hsep : p sep = false) (text : List α) :
    (text.dropWhile p).splitOn sep = (text.splitOn sep).modifyHead (List.dropWhile p) := by
  induction text with
  | nil => rfl
  | cons c text ih =>
    rw [List.splitOn_cons_eq_if_modifyHead]
    by_cases hc : p c = true
    · have hne : (c == sep) = false := beq_false_of_ne fun h => by
        rw [h, hsep] at hc
        cases hc
      rw [List.dropWhile_cons_of_pos hc, ih, hne, if_neg Bool.false_ne_true,
        List.modifyHead_modifyHead]
      congr 1
      funext front
      exact (List.dropWhile_cons_of_pos hc).symm
    · rw [List.dropWhile_cons_of_neg hc, List.splitOn_cons_eq_if_modifyHead]
      split
      · rfl
      · rw [List.modifyHead_modifyHead]
        congr 1
        funext front
        exact (List.dropWhile_cons_of_neg hc).symm

theorem intercalate_append {front rear : List (List α)} (hfront : front ≠ []) (hrear : rear ≠ []) :
    [sep].intercalate (front ++ rear) =
      [sep].intercalate front ++ sep :: [sep].intercalate rear := by
  induction front with
  | nil => exact absurd rfl hfront
  | cons segment front ih =>
    cases front with
    | nil =>
      rw [List.singleton_append, List.intercalate_cons_of_ne_nil hrear, List.intercalate_singleton,
        List.append_assoc, List.singleton_append]
    | cons next front =>
      rw [List.cons_append, List.intercalate_cons_of_ne_nil (by simp), ih (List.cons_ne_nil _ _),
        List.intercalate_cons_cons]
      simp only [List.append_assoc]

/-- The segments of a text begin with those of a front exactly where the text is the front, or goes
on after it with a separator. -/
theorem splitOn_prefix_iff [DecidableEq α] {front text : List α} :
    front.splitOn sep <+: text.splitOn sep ↔ text = front ∨ front ++ [sep] <+: text := by
  constructor
  · rintro ⟨rest, hrest⟩
    have htext : text = [sep].intercalate (front.splitOn sep ++ rest) := by
      rw [hrest, List.intercalate_splitOn]
    cases rest with
    | nil => exact Or.inl (by rw [htext, List.append_nil, List.intercalate_splitOn])
    | cons segment rest =>
      refine Or.inr ⟨[sep].intercalate (segment :: rest), ?_⟩
      rw [htext, intercalate_append (List.splitOn_ne_nil sep front) (List.cons_ne_nil _ _),
        List.intercalate_splitOn, List.append_assoc, List.singleton_append]
  · rintro (rfl | ⟨rest, rfl⟩)
    · exact List.prefix_rfl
    · rw [List.append_assoc, List.singleton_append, List.splitOn_append_cons_self]
      exact List.prefix_append _ _

/-- The lines of a text that ends with a line feed. -/
theorem splitOnChar_joined {separator : Char} {lines : List (List Char)}
    (hlines : ∀ line ∈ lines, separator ∉ line) :
    Text.splitOnChar separator (String.ofList (joined separator lines [])) =
      lines.map String.ofList ++ [""] := by
  rw [Text.splitOnChar, String.toList_ofList, splitOn_joined hlines List.not_mem_nil,
    List.map_append]
  rfl

/-- The segments that a search for a word between two separators finds. -/
theorem delimited_infix_joined_iff [DecidableEq α] (hsegments : ∀ s ∈ segments, sep ∉ s)
    (hlast : sep ∉ last) (hword : sep ∉ word) :
    sep :: word ++ [sep] <:+: joined sep segments last ↔ word ∈ segments.tail := by
  constructor
  · rintro ⟨front, rear, htext⟩
    -- split both sides: the word is a segment of its own between two non-empty parts
    have hsplit := splitOn_joined hsegments hlast
    have hword' : (word ++ sep :: rear).splitOn sep = word :: rear.splitOn sep :=
      List.splitOn_append_cons_self_of_not_mem hword rear
    have hsame : front ++ sep :: (word ++ sep :: rear) = joined sep segments last := by
      simpa using htext
    rw [← hsame, List.splitOn_append_cons_self, hword'] at hsplit
    obtain ⟨first, others, hfront⟩ := List.exists_cons_of_ne_nil (List.splitOn_ne_nil sep front)
    obtain ⟨initial, final, hrear⟩ :=
      (List.eq_nil_or_concat (rear.splitOn sep)).resolve_left (List.splitOn_ne_nil sep rear)
    rw [hfront, hrear] at hsplit
    have hparts : first :: (others ++ word :: initial) ++ [final] = segments ++ [last] := by
      rw [← hsplit]
      simp
    have hsegs := (List.append_inj' hparts rfl).1
    rw [← hsegs]
    simp
  · intro hmem
    cases segments with
    | nil => cases hmem
    | cons first others =>
      obtain ⟨front, rear, hothers⟩ := List.append_of_mem hmem
      -- the separator before the word ends the segment that comes before it
      obtain ⟨initial, final, hbefore⟩ :=
        (List.eq_nil_or_concat (first :: front)).resolve_left (List.cons_ne_nil _ _)
      refine ⟨joined sep initial final, joined sep rear last, ?_⟩
      have hall : first :: others = (initial ++ [final]) ++ word :: rear := by
        have htail : others = front ++ word :: rear := hothers
        rw [htail, ← List.cons_append, hbefore, List.concat_eq_append]
      rw [hall, joined_append, joined_concat, joined_cons]
      simp

/-- A word without separators at the end of the text is at the end of the last segment. -/
theorem suffix_joined_iff (hword : sep ∉ word) :
    word <:+ joined sep segments last ↔ word <:+ last := by
  have hlast : last <:+ joined sep segments last := List.suffix_append _ _
  constructor
  · intro h
    rcases List.suffix_or_suffix_of_suffix h hlast with hshort | hlong
    · exact hshort
    · -- a longer word would begin before the last segment, after a separator
      cases segments using List.reverseRecOn with
      | nil => exact h
      | append_singleton front segment =>
        have hafter : sep :: last <:+ joined sep (front ++ [segment]) last := by
          rw [joined_concat]
          exact List.suffix_append _ _
        rcases List.suffix_or_suffix_of_suffix h hafter with hword' | hword'
        · rcases List.suffix_cons_iff.mp hword' with hwhole | hshort
          · exact absurd (hwhole ▸ List.mem_cons_self) hword
          · exact hshort
        · exact absurd (hword'.subset List.mem_cons_self) hword
  · exact fun h => h.trans hlast

/-- A word after a separator at the end of the text is the last segment, and not the only
one. -/
theorem delimited_suffix_joined_iff (hlast : sep ∉ last) (hword : sep ∉ word) :
    sep :: word <:+ joined sep segments last ↔ segments ≠ [] ∧ last = word := by
  cases segments using List.reverseRecOn with
  | nil =>
    refine ⟨fun h => absurd (h.subset List.mem_cons_self) hlast, fun h => absurd rfl h.1⟩
  | append_singleton front segment =>
    rw [joined_concat]
    constructor
    · intro h
      refine ⟨by simp, ?_⟩
      rcases List.suffix_or_suffix_of_suffix h (List.suffix_append _ _) with hin | hin
      · rcases List.suffix_cons_iff.mp hin with hwhole | hshort
        · exact (List.cons.inj hwhole).2.symm
        · exact absurd (hshort.subset List.mem_cons_self) hlast
      · rcases List.suffix_cons_iff.mp hin with hwhole | hshort
        · exact (List.cons.inj hwhole).2
        · exact absurd (hshort.subset List.mem_cons_self) hword
    · rintro ⟨-, rfl⟩
      exact List.suffix_append _ _

end Search

end Segments
