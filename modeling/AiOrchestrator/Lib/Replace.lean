import AiOrchestrator.Lib.Text

/-!
# Replacing matches by a marker

`text.replace(/…/g, …)` goes through a text from left to right and replaces every match that begins where the
last one ended or later (`replaceFrom`). Where each replacement is its match with parts of it replaced by a
marker, the whole text is its old self with parts replaced (`Marked`). A word without the two brackets of the
marker that occurs in such a text occurred before (`Marked.occurs_before`), unless it occurs in the marker; so
no pass brings a word back that another pass has taken out.
-/

namespace Text

/-- What a pattern finds at a place of a text, after the character before it: the length of the match and
its replacement. -/
abbrev Matcher := Option Char → List Char → Option (Nat × List Char)

/-- **A global replacement**; `skip` characters are still in the last match. An empty match is none. -/
def replaceFrom (matchAt : Matcher) : Option Char → Nat → List Char → List Char
  | _, _, [] => []
  | _, skip + 1, c :: cs => replaceFrom matchAt (some c) skip cs
  | prev, 0, c :: cs =>
    match matchAt prev (c :: cs) with
    | some (n + 1, replacement) => replacement ++ replaceFrom matchAt (some c) n cs
    | _ => c :: replaceFrom matchAt (some c) 0 cs

/-- `text.replace(pattern, …)` with a global pattern. -/
def replaceAll (matchAt : Matcher) (text : String) : String :=
  String.ofList (replaceFrom matchAt none 0 text.toList)

/-- A word between the two brackets. -/
def bracketed (word : List Char) : List Char := '<' :: (word ++ ['>'])

theorem bracketed_append (word rest : List Char) :
    bracketed word ++ rest = '<' :: (word ++ '>' :: rest) := by
  simp [bracketed]

/-- **A text with parts replaced** by the word between the brackets. -/
inductive Marked (word : List Char) : List Char → List Char → Prop
  | nil : Marked word [] []
  | keep {old new : List Char} (c : Char) : Marked word old new → Marked word (c :: old) (c :: new)
  | mark {old new : List Char} (dropped : List Char) : Marked word old new →
    Marked word (dropped ++ old) (bracketed word ++ new)

namespace Marked

variable {word old new old' new' : List Char}

theorem refl (text : List Char) : Marked word text text := by
  induction text with
  | nil => exact .nil
  | cons c text ih => exact .keep c ih

theorem append (h : Marked word old new) (h' : Marked word old' new') :
    Marked word (old ++ old') (new ++ new') := by
  induction h with
  | nil => exact h'
  | keep c _ ih => exact .keep c ih
  | mark dropped _ ih =>
    rw [List.append_assoc, List.append_assoc]
    exact .mark dropped ih

/-- A part that is replaced as a whole. -/
theorem dropped (part : List Char) : Marked word part (bracketed word) := by
  have hmark : Marked word (part ++ []) (bracketed word ++ []) := .mark part .nil
  rwa [List.append_nil, List.append_nil] at hmark

/-- A match between two texts that stay. -/
theorem between (front part rear : List Char) :
    Marked word (front ++ part ++ rear) (front ++ bracketed word ++ rear) :=
  ((refl front).append (dropped part)).append (refl rear)

end Marked

/-- A word without the brackets of the marker. -/
def Plain (w : List Char) : Prop := '<' ∉ w ∧ '>' ∉ w

/-- A word occurs on one side of a character that it does not contain. -/
theorem infix_append_cons {w rear : List Char} {c : Char} (front : List Char) (hc : c ∉ w)
    (h : w <:+: front ++ c :: rear) : w <:+: front ∨ w <:+: rear := by
  obtain ⟨s, t, hsplit⟩ := h
  rw [List.append_assoc] at hsplit
  rcases List.append_eq_append_iff.mp hsplit with ⟨a, hfront, hrest⟩ | ⟨a, hs, hrest⟩
  · rcases List.append_eq_append_iff.mp hrest with ⟨b, ha, -⟩ | ⟨b, hw, hb⟩
    · exact .inl ⟨s, b, by rw [hfront, ha, List.append_assoc]⟩
    · -- what is left of the word begins with the character
      cases b with
      | nil => exact .inl ⟨s, [], by rw [hfront, hw]; simp⟩
      | cons d b =>
        obtain ⟨rfl, -⟩ := List.cons.inj hb
        exact absurd (by rw [hw]; simp) hc
  · cases a with
    | nil =>
      cases w with
      | nil => exact .inr List.nil_infix
      | cons d w =>
        obtain ⟨rfl, -⟩ := List.cons.inj hrest
        exact absurd List.mem_cons_self hc
    | cons d a =>
      obtain ⟨-, hrear⟩ := List.cons.inj hrest
      exact .inr ⟨a, t, (List.append_assoc _ _ _).trans hrear.symm⟩

namespace Marked

variable {word old new w : List Char}

/-- A plain word at the front of a marked text stood there before. -/
theorem begins_of_begins (h : Marked word old new) (hw : Plain w) (hfront : w <+: new) : w <+: old := by
  induction h generalizing w with
  | nil => exact hfront
  | keep c _ ih =>
    cases w with
    | nil => exact List.nil_prefix
    | cons d w =>
      rw [List.cons_prefix_cons] at hfront ⊢
      exact ⟨hfront.1, ih ⟨fun h => hw.1 (List.mem_cons_of_mem _ h),
        fun h => hw.2 (List.mem_cons_of_mem _ h)⟩ hfront.2⟩
  | mark dropped _ _ =>
    cases w with
    | nil => exact List.nil_prefix
    | cons d w =>
      rw [bracketed_append, List.cons_prefix_cons] at hfront
      exact absurd (hfront.1 ▸ List.mem_cons_self) hw.1

/-- **No word comes back**: a plain word in a marked text was there before or is part of the marker. -/
theorem occurs_before (h : Marked word old new) (hw : Plain w) (hword : ¬ w <:+: word)
    (hoccurs : w <:+: new) : w <:+: old := by
  induction h with
  | nil => exact hoccurs
  | keep c hmarked ih =>
    rcases List.infix_cons_iff.mp hoccurs with hfront | hrear
    · exact ((Marked.keep c hmarked).begins_of_begins hw hfront).isInfix
    · exact List.infix_cons (ih hrear)
  | mark dropped _ ih =>
    rw [bracketed_append] at hoccurs
    rcases infix_append_cons [] hw.1 hoccurs with hnone | hrest
    · rw [List.infix_nil.mp hnone]
      exact List.nil_infix
    · rcases infix_append_cons word hw.2 hrest with hin | hrear
      · exact absurd hin hword
      · exact (ih hrear).trans (List.suffix_append _ _).isInfix

end Marked

/-! ### Passes -/

/-- A pattern whose replacements are its matches with parts marked. -/
def Marks (word : List Char) (matchAt : Matcher) : Prop :=
  ∀ prev cs n replacement, matchAt prev cs = some (n, replacement) →
    ∃ matched rest, cs = matched ++ rest ∧ matched.length = n ∧ Marked word matched replacement

variable {word : List Char} {matchAt : Matcher}

theorem Marks.replaceFrom (h : Marks word matchAt) (prev : Option Char) (skip : Nat) (cs : List Char) :
    Marked word (cs.drop skip) (replaceFrom matchAt prev skip cs) := by
  induction cs generalizing prev skip with
  | nil => rw [List.drop_nil]; exact .nil
  | cons c cs ih =>
    cases skip with
    | succ skip => exact ih (some c) skip
    | zero =>
      rw [List.drop_zero, Text.replaceFrom]
      split
      · next n replacement hmatch =>
        obtain ⟨matched, rest, hsplit, hlength, hmarked⟩ := h _ _ _ _ hmatch
        have hdrop : cs.drop n = rest := by
          calc cs.drop n = (c :: cs).drop (n + 1) := rfl
            _ = (matched ++ rest).drop matched.length := by rw [hsplit, hlength]
            _ = rest := List.drop_left
        rw [hsplit, ← hdrop]
        exact hmarked.append (ih (some c) n)
      · exact .keep c (ih (some c) 0)

/-- A pass marks parts of the text. -/
theorem Marks.replaceAll (h : Marks word matchAt) (text : String) :
    Marked word text.toList (Text.replaceAll matchAt text).toList := by
  rw [Text.replaceAll, String.toList_ofList]
  exact h.replaceFrom none 0 text.toList

/-! ### Words that are taken out -/

/-- Finding a word. -/
def matchWord (secret replacement : List Char) : Matcher := fun _ cs =>
  if secret.isPrefixOf cs then some (secret.length, replacement) else none

theorem marks_matchWord (secret : List Char) :
    Marks word (matchWord secret (bracketed word)) := by
  intro prev cs n replacement hmatch
  unfold matchWord at hmatch
  split_ifs at hmatch with hstart
  obtain ⟨rfl, rfl⟩ := Prod.mk.inj (Option.some.inj hmatch)
  obtain ⟨rest, hrest⟩ := List.isPrefixOf_iff_prefix.mp hstart
  exact ⟨secret, rest, hrest.symm, rfl, Marked.dropped secret⟩

/-- **A word that is replaced everywhere** is gone: the pass leaves none over, and the markers make none. -/
theorem not_infix_replaceFrom {secret : List Char} (hplain : Plain secret)
    (hword : ¬ secret <:+: word) (prev : Option Char) (skip : Nat) (cs : List Char) :
    ¬ secret <:+: replaceFrom (matchWord secret (bracketed word)) prev skip cs := by
  have hne : secret ≠ [] := fun hnil => hword (hnil ▸ List.nil_infix)
  induction cs generalizing prev skip with
  | nil => exact fun h => hne (List.infix_nil.mp h)
  | cons c cs ih =>
    cases skip with
    | succ skip => exact ih (some c) skip
    | zero =>
      rw [replaceFrom]
      split
      · next n replacement hmatch =>
        unfold matchWord at hmatch
        split_ifs at hmatch
        obtain ⟨-, rfl⟩ := Prod.mk.inj (Option.some.inj hmatch)
        intro h
        rw [bracketed_append] at h
        rcases infix_append_cons [] hplain.1 h with hnone | hrest
        · exact hne (List.infix_nil.mp hnone)
        · rcases infix_append_cons word hplain.2 hrest with hin | hrear
          · exact hword hin
          · exact ih (some c) n hrear
      · next hnone =>
        intro h
        rcases List.infix_cons_iff.mp h with hfront | hrear
        · -- the word would have been found here
          have hmarks : Marks word (matchWord secret (bracketed word)) := marks_matchWord secret
          have hbegins := (Marked.keep c (hmarks.replaceFrom (some c) 0 cs)).begins_of_begins hplain hfront
          rw [List.drop_zero] at hbegins
          obtain ⟨n, hn⟩ := Nat.exists_eq_succ_of_ne_zero (List.length_pos_iff.mpr hne).ne'
          refine hnone n (bracketed word) ?_
          rw [matchWord, if_pos (List.isPrefixOf_iff_prefix.mpr hbegins), hn]
        · exact ih (some c) 0 hrear

end Text
