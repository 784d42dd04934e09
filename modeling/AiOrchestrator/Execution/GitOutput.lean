import AiOrchestrator.Lib.Segments
import AiOrchestrator.Lib.Text

/-!
# What git prints

The output of the git commands that the program reads line by line: repository-relative
paths (`RepoPath`) as git prints them. A path with unusual characters is printed between
double quotes, with an escape sequence for each such character; which characters are unusual
depends on the settings of git (`core.quotePath`), so that the printing is a parameter
(`GitQuoting`) with the rules that hold under all of them.

`printed_eq_joined` is what a search for a directory needs to know of a printed path: quoted
or not, it is a text of segments between slashes, and the segments after the first and before
the last are those of the path with their unusual characters escaped.
-/

namespace AiOrchestrator

/-- A path relative to the root of a repository: the names of the directories down to a file,
and the name of the file. -/
structure RepoPath where
  directories : List String
  name : String
  segments_wellFormed : ∀ segment ∈ name :: directories, segment ≠ "" ∧ '/' ∉ segment.toList

namespace RepoPath

/-- The characters of a path. -/
def chars (path : RepoPath) : List Char :=
  Segments.joined '/' (path.directories.map String.toList) path.name.toList

/-- The text of a path. -/
def text (path : RepoPath) : String := String.ofList path.chars

theorem slash_not_mem_directory (path : RepoPath) {directory : String}
    (h : directory ∈ path.directories) : '/' ∉ directory.toList :=
  (path.segments_wellFormed directory (List.mem_cons_of_mem _ h)).2

theorem slash_not_mem_name (path : RepoPath) : '/' ∉ path.name.toList :=
  (path.segments_wellFormed path.name List.mem_cons_self).2

theorem name_ne_nil (path : RepoPath) : path.name.toList ≠ [] := fun h =>
  (path.segments_wellFormed path.name List.mem_cons_self).1 (String.toList_eq_nil_iff.mp h)

theorem chars_ne_nil (path : RepoPath) : path.chars ≠ [] := fun h =>
  path.name_ne_nil (List.append_eq_nil_iff.mp h).2

end RepoPath

/-- The characters that codes are made of. -/
def IsCodeChar (d : Char) : Prop := d ≠ '/' ∧ d ≠ '\n' ∧ Text.isSpace d = false

/-- **How git prints the characters of a path.** A character is printed as it is or as a
backslash and a code; the printable ASCII characters but the quote and the backslash are
printed as they are, the control characters, the quote and the backslash are not. -/
structure GitQuoting where
  escape : Char → List Char
  plain_or_code : ∀ c, escape c = [c] ∨
    ∃ code, escape c = '\\' :: code ∧ code ≠ [] ∧ ∀ d ∈ code, IsCodeChar d
  usual : ∀ c, 0x20 ≤ c.toNat → c.toNat < 0x7F → c ≠ '"' → c ≠ '\\' → escape c = [c]
  unusual : ∀ c, c.toNat < 0x20 ∨ c.toNat = 0x7F ∨ c = '"' ∨ c = '\\' → escape c ≠ [c]

namespace GitQuoting

variable (git : GitQuoting)

/-- Text that git prints as it is. -/
def Plain (cs : List Char) : Prop := ∀ c ∈ cs, git.escape c = [c]

instance (cs : List Char) : Decidable (git.Plain cs) :=
  List.decidableBAll (fun c => git.escape c = [c]) cs

/-- Text between quotes. -/
def quoted (cs : List Char) : List Char := '"' :: cs.flatMap git.escape ++ ['"']

/-- A path as a command prints it. Some commands (`quotesBlanks`) also put a path with a blank
between quotes. -/
def printed (quotesBlanks : Bool) (cs : List Char) : List Char :=
  if git.Plain cs ∧ (quotesBlanks = true → ' ' ∉ cs) then cs else git.quoted cs

theorem escape_slash : git.escape '/' = ['/'] :=
  git.usual '/' (by decide) (by decide) (by decide) (by decide)

/-- What is printed for a character has no separator of paths, fields and lines in it, unless
the character is the slash. -/
theorem slash_not_mem_escape {c : Char} (hc : c ≠ '/') : '/' ∉ git.escape c := by
  rcases git.plain_or_code c with h | ⟨code, h, -, hcode⟩
  · rw [h]
    simpa using Ne.symm hc
  · rw [h]
    intro hmem
    rcases List.mem_cons.mp hmem with hslash | hin
    · cases hslash
    · exact (hcode _ hin).1 rfl

/-- Control characters are not printed. -/
theorem control_not_mem_escape {d : Char} (hd : Text.isSpace d = true) (hlt : d.toNat < 0x20)
    (c : Char) : d ∉ git.escape c := by
  rcases git.plain_or_code c with h | ⟨code, h, -, hcode⟩
  · rw [h]
    intro hmem
    have hsame : d = c := by simpa using hmem
    exact git.unusual c (Or.inl (hsame ▸ hlt)) h
  · rw [h]
    intro hmem
    rcases List.mem_cons.mp hmem with hback | hin
    · subst hback
      simp at hlt
    · have hspace := (hcode _ hin).2.2
      rw [hd] at hspace
      cases hspace

theorem flatMap_escape_of_plain {cs : List Char} (h : git.Plain cs) :
    cs.flatMap git.escape = cs := by
  induction cs with
  | nil => rfl
  | cons c cs ih =>
    rw [List.flatMap_cons, h c List.mem_cons_self,
      ih fun d hd => h d (List.mem_cons_of_mem _ hd)]
    rfl

/-- A path with a character that is escaped has a backslash in it. -/
theorem backslash_mem_of_not_plain {cs : List Char} (h : ¬ git.Plain cs) :
    '\\' ∈ cs.flatMap git.escape := by
  obtain ⟨c, hc, hescape⟩ : ∃ c ∈ cs, git.escape c ≠ [c] := by
    simpa [Plain] using h
  rcases git.plain_or_code c with hplain | ⟨code, hcode, -, -⟩
  · exact absurd hplain hescape
  · exact List.mem_flatMap.mpr ⟨c, hc, hcode ▸ List.mem_cons_self⟩

theorem slash_not_mem_flatMap {cs : List Char} (h : '/' ∉ cs) : '/' ∉ cs.flatMap git.escape := by
  intro hmem
  obtain ⟨c, hc, hin⟩ := List.mem_flatMap.mp hmem
  exact git.slash_not_mem_escape (fun hslash => h (hslash ▸ hc)) hin

/-- Neither a tab nor a line feed is printed in a path. -/
theorem control_not_mem_printed {d : Char} (hd : Text.isSpace d = true) (hlt : d.toNat < 0x20)
    (quotesBlanks : Bool) (cs : List Char) : d ∉ git.printed quotesBlanks cs := by
  have hescaped : d ∉ cs.flatMap git.escape := by
    intro hmem
    obtain ⟨c, -, hin⟩ := List.mem_flatMap.mp hmem
    exact git.control_not_mem_escape hd hlt c hin
  unfold printed
  split
  · next h => rwa [git.flatMap_escape_of_plain h.1] at hescaped
  · have hquote : d ≠ '"' := by
      rintro rfl
      simp at hlt
    simp [quoted, hescaped, hquote]

/-- **The segments of a printed path**: those of the path with their unusual characters
escaped, but for a quote at either end. -/
theorem printed_eq_joined (quotesBlanks : Bool) (path : RepoPath) :
    ∃ segments last, git.printed quotesBlanks path.chars = Segments.joined '/' segments last ∧
      (∀ s ∈ segments, '/' ∉ s) ∧ '/' ∉ last ∧
      segments.tail =
        path.directories.tail.map (fun directory => directory.toList.flatMap git.escape) ∧
      (segments = [] ↔ path.directories = []) := by
  have hescaped : path.chars.flatMap git.escape =
      Segments.joined '/' (path.directories.map fun d => d.toList.flatMap git.escape)
        (path.name.toList.flatMap git.escape) := by
    rw [RepoPath.chars, Segments.flatMap_joined git.escape_slash, List.map_map]
    rfl
  have hdirectory : ∀ s ∈ path.directories.map (fun d => d.toList.flatMap git.escape),
      '/' ∉ s := by
    intro s hs
    obtain ⟨directory, hmem, rfl⟩ := List.mem_map.mp hs
    exact git.slash_not_mem_flatMap (path.slash_not_mem_directory hmem)
  have hname := git.slash_not_mem_flatMap path.slash_not_mem_name
  unfold printed
  split
  · next hplain =>
    rw [git.flatMap_escape_of_plain hplain.1] at hescaped
    exact ⟨_, _, hescaped, hdirectory, hname, by rw [List.map_tail], by simp⟩
  · -- the opening quote belongs to the first segment, the closing one to the last
    rw [quoted, hescaped]
    cases hdirs : path.directories with
    | nil =>
      refine ⟨[], '"' :: path.name.toList.flatMap git.escape ++ ['"'], by simp, by simp, ?_,
        rfl, by simp⟩
      simp [hname]
    | cons first others =>
      rw [hdirs] at hdirectory
      refine ⟨('"' :: first.toList.flatMap git.escape) ::
        others.map (fun d => d.toList.flatMap git.escape),
        path.name.toList.flatMap git.escape ++ ['"'], ?_, ?_, ?_, rfl, by simp⟩
      · rw [Segments.joined_last_append]
        simp
      · intro s hs
        rcases List.mem_cons.mp hs with rfl | hs
        · have hfirst := hdirectory _ (List.mem_map_of_mem List.mem_cons_self)
          simpa using hfirst
        · exact hdirectory s (List.mem_cons_of_mem _ hs)
      · simp [hname]

end GitQuoting

/-! ### The standard printing -/

/-- An octal digit. -/
def octalDigit (n : Nat) : Char := Char.ofNat (48 + n % 8)

/-- The code of a byte: a backslash and three octal digits. -/
def octalCode (byte : Nat) : List Char :=
  ['\\', octalDigit (byte / 64), octalDigit (byte / 8), octalDigit byte]

/-- The letters of the control characters from the bell to the carriage return. -/
def controlLetter (n : Nat) : Char := ['a', 'b', 't', 'n', 'v', 'f', 'r'].getD (n - 7) 'r'

/-- How git prints a character when it is not told otherwise. -/
def standardEscape (c : Char) : List Char :=
  if c = '"' ∨ c = '\\' then ['\\', c]
  else if 0x20 ≤ c.toNat ∧ c.toNat < 0x7F then [c]
  else if 7 ≤ c.toNat ∧ c.toNat ≤ 13 then ['\\', controlLetter c.toNat]
  else (String.utf8EncodeChar c).flatMap fun byte => octalCode byte.toNat

theorem isCodeChar_octalDigit (n : Nat) : IsCodeChar (octalDigit n) := by
  have hall : ∀ k, k < 8 → IsCodeChar (Char.ofNat (48 + k))
    | 0, _ | 1, _ | 2, _ | 3, _ | 4, _ | 5, _ | 6, _ | 7, _ =>
      ⟨by decide, by decide, by decide⟩
    | _ + 8, h => absurd h (by omega)
  exact hall _ (Nat.mod_lt _ (by decide))

theorem isCodeChar_controlLetter (n : Nat) : IsCodeChar (controlLetter n) := by
  have hall : ∀ d ∈ ['a', 'b', 't', 'n', 'v', 'f', 'r'], IsCodeChar d := by
    intro d hd
    simp only [List.mem_cons, List.not_mem_nil, or_false] at hd
    rcases hd with rfl | rfl | rfl | rfl | rfl | rfl | rfl <;>
      exact ⟨by decide, by decide, by decide⟩
  rw [controlLetter, List.getD_eq_getElem?_getD]
  cases hget : ['a', 'b', 't', 'n', 'v', 'f', 'r'][n - 7]? with
  | none => exact hall _ (by decide)
  | some d => exact hall d (List.mem_of_getElem? hget)

theorem isCodeChar_octalCode {byte : Nat} {d : Char} (h : d ∈ octalCode byte) : IsCodeChar d := by
  have hback : IsCodeChar '\\' := by
    unfold IsCodeChar
    decide
  simp only [octalCode, List.mem_cons, List.not_mem_nil, or_false] at h
  rcases h with rfl | rfl | rfl | rfl
  · exact hback
  all_goals exact isCodeChar_octalDigit _

theorem standardEscape_cases (c : Char) : standardEscape c = [c] ∨
    ∃ code, standardEscape c = '\\' :: code ∧ code ≠ [] ∧ ∀ d ∈ code, IsCodeChar d := by
  unfold standardEscape
  split
  · next h =>
    refine Or.inr ⟨[c], rfl, by simp, fun d hd => ?_⟩
    rw [List.mem_singleton.mp hd]
    unfold IsCodeChar
    rcases h with rfl | rfl <;> decide
  · split
    · exact Or.inl rfl
    · split
      · refine Or.inr ⟨_, rfl, by simp, fun d hd => ?_⟩
        rw [List.mem_singleton.mp hd]
        exact isCodeChar_controlLetter _
      · obtain ⟨byte, bytes, hbytes⟩ :=
          List.exists_cons_of_ne_nil (String.utf8EncodeChar_ne_nil (c := c))
        rw [hbytes, List.flatMap_cons]
        refine Or.inr ⟨_, rfl, by simp, fun d hd => ?_⟩
        have hmem : d ∈ octalCode byte.toNat ++ bytes.flatMap fun b => octalCode b.toNat :=
          List.mem_cons_of_mem _ hd
        rcases List.mem_append.mp hmem with hin | hin
        · exact isCodeChar_octalCode hin
        · obtain ⟨b, -, hb⟩ := List.mem_flatMap.mp hin
          exact isCodeChar_octalCode hb

/-- **The standard printing**: `core.quotePath` is on. -/
def GitQuoting.standard : GitQuoting where
  escape := standardEscape
  plain_or_code := standardEscape_cases
  usual c hlow hhigh hquote hback := by
    rw [standardEscape, if_neg (by simp [hquote, hback]), if_pos ⟨hlow, hhigh⟩]
  unusual c h := by
    -- every other form is longer than one character
    unfold standardEscape
    split
    · simp
    · next hsign =>
      have hrange : ¬ (0x20 ≤ c.toNat ∧ c.toNat < 0x7F) := by
        rcases h with hlow | hdel | hback
        · omega
        · omega
        · exact absurd hback hsign
      rw [if_neg hrange]
      split
      · simp
      · obtain ⟨byte, bytes, hbytes⟩ :=
          List.exists_cons_of_ne_nil (String.utf8EncodeChar_ne_nil (c := c))
        rw [hbytes]
        simp [octalCode]

end AiOrchestrator
