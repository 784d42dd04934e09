import AiOrchestrator.Core.Redaction
import AiOrchestrator.Lib.JsonParts

/-!
# Registered secrets do not survive

Each pass over a text marks parts of its matches and keeps the rest as it was (`marks_matchProviderKey`,
`marks_matchBearer`, `marks_matchAssignment`), so a secret that is out of the text stays out
(`not_infix_redactSecretStrings`): no replacement, of another secret or by a pattern, exposes or assembles
it. `redactSecrets_hides` says it for the texts of a whole value.
-/

namespace AiOrchestrator

namespace Redaction

open Text (Marked Marks)

/-! ### The patterns -/

/-- A match is a front part of the text. -/
theorem exists_match {cs replacement : List Char} {n : Nat} (h : n ≤ cs.length)
    (hmarked : Marked redactedWord (cs.take n) replacement) :
    ∃ matched rest, cs = matched ++ rest ∧ matched.length = n ∧
      Marked redactedWord matched replacement :=
  ⟨cs.take n, cs.drop n, (List.take_append_drop n cs).symm, List.length_take_of_le h, hmarked⟩

theorem marks_matchProviderKey : Marks redactedWord matchProviderKey := by
  intro prev cs n replacement hmatch
  unfold matchProviderKey at hmatch
  split_ifs at hmatch with hbegin
  dsimp only at hmatch
  split_ifs at hmatch
  obtain ⟨rfl, rfl⟩ := Prod.mk.inj (Option.some.inj hmatch)
  refine exists_match ?_ (Marked.dropped _)
  have hthree : 3 ≤ cs.length := (List.isPrefixOf_iff_prefix.mp hbegin.2).length_le
  have hrun : ((cs.drop 3).takeWhile isKeyChar).length ≤ (cs.drop 3).length :=
    (List.takeWhile_prefix _).length_le
  rw [List.length_drop] at hrun
  omega

theorem length_le_of_startsWithIgnoringCase {word cs : List Char}
    (h : startsWithIgnoringCase word cs = true) : word.length ≤ cs.length := by
  have hlength := (List.isPrefixOf_iff_prefix.mp h).length_le
  rwa [List.length_map] at hlength

theorem marks_matchBearer : Marks redactedWord matchBearer := by
  intro prev cs n replacement hmatch
  unfold matchBearer at hmatch
  split_ifs at hmatch with hbegin
  dsimp only at hmatch
  split_ifs at hmatch
  obtain ⟨rfl, rfl⟩ := Prod.mk.inj (Option.some.inj hmatch)
  have hsix : 6 ≤ cs.length := length_le_of_startsWithIgnoringCase hbegin
  set spaces := (cs.drop 6).takeWhile Text.isSpace with hspaces
  set token := ((cs.drop 6).dropWhile Text.isSpace).takeWhile isTokenChar with htoken
  have hbehind : spaces ++ (cs.drop 6).dropWhile Text.isSpace = cs.drop 6 :=
    List.takeWhile_append_dropWhile
  have hafter : token ++ ((cs.drop 6).dropWhile Text.isSpace).dropWhile isTokenChar =
      (cs.drop 6).dropWhile Text.isSpace := List.takeWhile_append_dropWhile
  have hsplit : cs = cs.take 6 ++ spaces ++ token ++
      ((cs.drop 6).dropWhile Text.isSpace).dropWhile isTokenChar := by
    rw [List.append_assoc, List.append_assoc, hafter, hbehind, List.take_append_drop]
  refine ⟨cs.take 6 ++ spaces ++ token, _, hsplit, ?_, (Marked.refl _).append (Marked.dropped token)⟩
  rw [List.length_append, List.length_append, List.length_take_of_le hsix]

theorem takeSeparator_eq_some {cs separator rest : List Char}
    (h : takeSeparator cs = some (separator, rest)) : cs = separator ++ rest := by
  unfold takeSeparator at h
  split at h
  · next sign behind hdrop =>
    split_ifs at h
    obtain ⟨rfl, rfl⟩ := Prod.mk.inj (Option.some.inj h)
    calc cs = cs.takeWhile Text.isSpace ++ cs.dropWhile Text.isSpace :=
        List.takeWhile_append_dropWhile.symm
      _ = cs.takeWhile Text.isSpace ++ (sign :: (behind.takeWhile Text.isSpace ++
            behind.dropWhile Text.isSpace)) := by rw [hdrop, List.takeWhile_append_dropWhile]
      _ = _ := by simp
  · cases h

theorem takeQuote_begins (cs : List Char) : takeQuote cs <+: cs := by
  unfold takeQuote
  cases cs with
  | nil => exact List.nil_prefix
  | cons c cs =>
    dsimp only
    split_ifs
    · exact ⟨cs, rfl⟩
    · exact List.nil_prefix

/-- **An assignment that is read** stands at the front of the text. -/
theorem readAssignment_eq_some {prev : Option Char} {cs : List Char} {assignment : Assignment}
    (h : readAssignment prev cs = some assignment) :
    assignment.text assignment.value <+: cs := by
  unfold readAssignment at h
  split_ifs at h
  split at h
  · cases h
  · next word hword =>
    split at h
    · cases h
    · next separator rest hseparator =>
      dsimp only at h
      split_ifs at h with hrefused
      obtain rfl := Option.some.inj h
      -- the parts of the text one behind the other
      obtain ⟨afterQuote, hquote⟩ := takeQuote_begins rest
      have hafter : rest.drop (takeQuote rest).length = afterQuote := by
        exact (congrArg (List.drop (takeQuote rest).length) hquote.symm).trans List.drop_left
      rw [hafter] at hrefused
      obtain ⟨last, hlast⟩ : takeQuote rest <+: afterQuote.dropWhile isValueChar := by
        rw [← List.isPrefixOf_iff_prefix]
        by_contra hnot
        exact hrefused (.inr (Bool.eq_false_iff.mpr hnot))
      refine ⟨last, ?_⟩
      unfold Assignment.text
      dsimp only
      rw [hafter]
      calc cs.take word.length ++ separator ++ takeQuote rest ++ afterQuote.takeWhile isValueChar ++
            takeQuote rest ++ last
          = cs.take word.length ++ (separator ++ (takeQuote rest ++
              (afterQuote.takeWhile isValueChar ++ (takeQuote rest ++ last)))) := by
            simp only [List.append_assoc]
        _ = cs.take word.length ++ (separator ++ (takeQuote rest ++ afterQuote)) := by
            rw [hlast, List.takeWhile_append_dropWhile]
        _ = cs.take word.length ++ cs.drop word.length := by
            rw [hquote, ← takeSeparator_eq_some hseparator]
        _ = cs := List.take_append_drop _ cs

theorem marks_matchAssignment : Marks redactedWord matchAssignment := by
  intro prev cs n replacement hmatch
  obtain ⟨assignment, hread, hresult⟩ := Option.map_eq_some_iff.mp hmatch
  obtain ⟨rest, hrest⟩ := readAssignment_eq_some hread
  obtain ⟨rfl, rfl⟩ := Prod.mk.inj hresult
  refine ⟨assignment.text assignment.value, rest, hrest.symm, rfl, ?_⟩
  split_ifs
  · exact Marked.between (assignment.name ++ assignment.separator ++ assignment.quote) assignment.value
      assignment.quote
  · exact Marked.refl _

/-! ### Texts -/

/-- A secret that the redaction can hide: it has neither bracket of the marker, and is no part of its word. -/
structure Hideable (secret : String) : Prop where
  plain : Text.Plain secret.toList
  not_word : ¬ secret.toList <:+: redactedWord

variable {registry : List String} {secret : String}

/-- What is out of a text stays out in each pass. -/
theorem Hideable.not_infix_replaceAll (h : Hideable secret) {matchAt : Text.Matcher}
    (hmarks : Marks redactedWord matchAt) {text : String} (hout : ¬ secret.toList <:+: text.toList) :
    ¬ secret.toList <:+: (Text.replaceAll matchAt text).toList := fun hin =>
  hout ((hmarks.replaceAll text).occurs_before h.plain h.not_word hin)

/-- A registered secret is out after its turn, and is not brought back in the turns of the others. -/
theorem Hideable.not_infix_foldl (h : Hideable secret) (secrets : List String) (text : String)
    (hturn : secret ∈ secrets ∨ ¬ secret.toList <:+: text.toList) :
    ¬ secret.toList <:+: (secrets.foldl (fun sanitized secret =>
      Text.replaceAll (Text.matchWord secret.toList redactedMarker) sanitized) text).toList := by
  induction secrets generalizing text with
  | nil => exact hturn.resolve_left List.not_mem_nil
  | cons first rest ih =>
    refine ih _ ?_
    rcases hturn with hmem | hout
    · rcases List.mem_cons.mp hmem with rfl | hmem
      · right
        show ¬ secret.toList <:+: (Text.replaceAll _ text).toList
        rw [Text.replaceAll, String.toList_ofList]
        exact Text.not_infix_replaceFrom h.plain h.not_word none 0 text.toList
      · exact .inl hmem
    · exact .inr (h.not_infix_replaceAll (Text.marks_matchWord first.toList) hout)

/-- **A redacted text** contains no registered secret. -/
theorem Hideable.not_infix_redactSecretStrings (h : Hideable secret) (hregistered : secret ∈ registry)
    (text : String) : ¬ secret.toList <:+: (redactSecretStrings registry text).toList := by
  have hregistered : ¬ secret.toList <:+: (redactRegisteredSecrets registry text).toList :=
    h.not_infix_foldl _ text (.inl ((List.mem_insertionSort _).mpr hregistered))
  have hprovider := h.not_infix_replaceAll marks_matchProviderKey hregistered
  have hbearer := h.not_infix_replaceAll marks_matchBearer hprovider
  exact h.not_infix_replaceAll marks_matchAssignment hbearer

/-! ### Values -/

variable {ν : Type}

theorem redactItems_eq_map (items : List (Json ν)) :
    redactItems registry items = items.map (redactSecrets registry) := by
  induction items with
  | nil => rfl
  | cons item items ih => rw [redactItems, ih, List.map_cons]

/-- A property of the copy comes from one of the object. -/
theorem mem_redactProps {props : List (String × Json ν)} {p : String × Json ν}
    (h : p ∈ redactProps registry props) :
    ∃ q ∈ props, p.2 = .str (String.ofList redactedMarker) ∨ p.2 = redactSecrets registry q.2 := by
  induction props with
  | nil => cases h
  | cons q props ih =>
    rw [redactProps] at h
    split_ifs at h with hproto hkey
    · obtain ⟨r, hr, hp⟩ := ih h
      exact ⟨r, List.mem_cons_of_mem _ hr, hp⟩
    · rcases List.mem_cons.mp h with rfl | h
      · exact ⟨q, List.mem_cons_self, .inl rfl⟩
      · obtain ⟨r, hr, hp⟩ := ih h
        exact ⟨r, List.mem_cons_of_mem _ hr, hp⟩
    · rcases List.mem_cons.mp h with rfl | h
      · exact ⟨q, List.mem_cons_self, .inr rfl⟩
      · obtain ⟨r, hr, hp⟩ := ih h
        exact ⟨r, List.mem_cons_of_mem _ hr, hp⟩

/-- The marker contains no secret. -/
theorem Hideable.not_infix_marker (h : Hideable secret) : ¬ secret.toList <:+: redactedMarker := by
  intro hin
  have hne : secret.toList ≠ [] := fun hnil => h.not_word (hnil ▸ List.nil_infix)
  rw [redactedMarker, Text.bracketed] at hin
  rcases Text.infix_append_cons [] h.plain.1 hin with hnone | hrest
  · exact hne (List.infix_nil.mp hnone)
  · rcases Text.infix_append_cons redactedWord h.plain.2 hrest with hword | hnone
    · exact h.not_word hword
    · exact hne (List.infix_nil.mp hnone)

/-- No text of a redacted value contains a registered secret. -/
theorem Hideable.not_infix_texts (h : Hideable secret) (hregistered : secret ∈ registry) (value : Json ν) :
    ∀ s ∈ (redactSecrets registry value).texts, ¬ secret.toList <:+: s.toList := by
  induction value using Json.parts_induction with
  | null | bool _ | num _ => exact nofun
  | str s =>
    intro leaf hleaf
    rw [redactSecrets, Json.texts, List.mem_singleton] at hleaf
    rw [hleaf]
    exact h.not_infix_redactSecretStrings hregistered s
  | arr items ih =>
    intro leaf hleaf
    rw [redactSecrets, redactItems_eq_map, Json.mem_texts_arr] at hleaf
    obtain ⟨_, hcopy, hleaf⟩ := hleaf
    obtain ⟨item, hitem, rfl⟩ := List.mem_map.mp hcopy
    exact ih item hitem leaf hleaf
  | obj props ih =>
    intro leaf hleaf
    rw [redactSecrets, Json.mem_texts_obj] at hleaf
    obtain ⟨p, hp, hleaf⟩ := hleaf
    obtain ⟨q, hq, hmarker | hentry⟩ := mem_redactProps hp
    · rw [hmarker, Json.texts, List.mem_singleton] at hleaf
      rw [hleaf, String.toList_ofList]
      exact h.not_infix_marker
    · exact ih q hq leaf (hentry ▸ hleaf)

/-- **Registered secrets do not survive**: no text of a redacted value contains a registered secret that has
neither bracket and is no part of the word `redacted`. -/
theorem redactSecrets_hides (registry : List String) (value : Json ν) (secret : String)
    (hregistered : secret ∈ registry) (hplain : '<' ∉ secret.toList ∧ '>' ∉ secret.toList)
    (hword : Text.includes "redacted" secret = false) :
    ∀ s ∈ (redactSecrets registry value).texts, Text.includes s secret = false := by
  have hhideable : Hideable secret := by
    refine ⟨hplain, fun hin => ?_⟩
    have hincludes : Text.includes "redacted" secret = true := Text.hasInfix_iff.mpr hin
    rw [hword] at hincludes
    cases hincludes
  intro s hs
  rw [← Bool.not_eq_true]
  exact fun hin => hhideable.not_infix_texts hregistered value s hs (Text.hasInfix_iff.mp hin)

/-- Two secrets, one inside the other and each overlapping the next occurrence. -/
theorem redactSecrets_hides_nested :
    (redactSecrets ["aba", "xabay"]
        (.obj [("note", .arr [.str "xababay", .str "token=aba-xabay"])] : Json Nat)).texts.any
      (fun s => Text.includes s "aba") = false := by
  rw [List.any_eq_false]
  intro s hs
  rw [redactSecrets_hides ["aba", "xabay"] _ "aba" List.mem_cons_self (by decide) (by decide) s hs]
  exact Bool.false_ne_true

end Redaction

end AiOrchestrator
