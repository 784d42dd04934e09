import AiOrchestrator.Execution.GitStatus

/-!
# Forbidden directories

Which changes of a working tree the rules of a role forbid (`ExecutionPolicyRule.ViolatedBy`), and
which ones the check of the execution policy finds (`ExecutionPolicyRule.Finds`), both said of the
names of the directories and files that were changed.

The check takes every entry of the listing for one file, so that it counts entries. It looks for a
forbidden directory at the beginning of the entry, and finds it there or not depending on the first
column and on the quotes (`TreeChange.SeenIn`): where the column is filled a path without quotes
shows its directories, where it is blank a path in quotes does, and one without quotes has lost a
character. Of a renamed file only the origin is seen.
-/

namespace AiOrchestrator

/-! ### Names -/

namespace RepoPath

/-- The names of the directories and of the file. -/
def names (path : RepoPath) : List (List Char) :=
  path.directories.map String.toList ++ [path.name.toList]

/-- The file lies in a directory, or is what the directory is called. -/
def LiesIn (path : RepoPath) (directory : String) : Prop :=
  directory.toList.splitOn '/' <+: path.names

instance (path : RepoPath) (directory : String) : Decidable (path.LiesIn directory) :=
  inferInstanceAs (Decidable (_ <+: _))

theorem slash_not_mem_of_directories (path : RepoPath) :
    ∀ name ∈ path.directories.map String.toList, '/' ∉ name := by
  intro name hname
  obtain ⟨directory, hdirectory, rfl⟩ := List.mem_map.mp hname
  exact path.slash_not_mem_directory hdirectory

theorem splitOn_chars (path : RepoPath) : path.chars.splitOn '/' = path.names :=
  Segments.splitOn_joined path.slash_not_mem_of_directories path.slash_not_mem_name

/-- A path begins with a letter of its first name. -/
theorem head?_chars_ne (path : RepoPath) : path.chars.head? ≠ some '/' := by
  have hhead : ∀ (name : String) (rest : List Char), name ≠ "" → '/' ∉ name.toList →
      (name.toList ++ rest).head? ≠ some '/' := by
    intro name rest hne hslash hsome
    cases hname : name.toList with
    | nil => exact hne (String.toList_eq_nil_iff.mp hname)
    | cons c cs =>
      rw [hname, List.cons_append, List.head?_cons, Option.some_inj] at hsome
      exact hslash (hname ▸ hsome ▸ List.mem_cons_self)
  unfold chars
  cases hdirectories : path.directories with
  | nil =>
    have hname := path.segments_wellFormed path.name List.mem_cons_self
    rw [List.map_nil, Segments.joined_nil, ← List.append_nil path.name.toList]
    exact hhead _ _ hname.1 hname.2
  | cons first others =>
    have hfirst := path.segments_wellFormed first
      (List.mem_cons_of_mem _ (hdirectories ▸ List.mem_cons_self))
    rw [List.map_cons, Segments.joined_cons]
    exact hhead _ _ hfirst.1 hfirst.2

end RepoPath

/-- The comparison of the program is one of names. -/
theorem liesIn_iff {filePath directory : String} :
    Runtime.liesIn filePath directory = true ↔
      directory.toList.splitOn '/' <+: filePath.toList.splitOn '/' := by
  rw [Segments.splitOn_prefix_iff, Runtime.liesIn, Bool.or_eq_true, decide_eq_true_iff,
    ← String.toList_inj, Text.startsWith, List.isPrefixOf_iff_prefix, String.toList_append]
  rfl

/-- Git puts the text between quotes. -/
def GitQuoting.Quotes (git : GitQuoting) (cs : List Char) : Prop :=
  ¬ (git.Plain cs ∧ ' ' ∉ cs)

instance (git : GitQuoting) (cs : List Char) : Decidable (git.Quotes cs) :=
  inferInstanceAs (Decidable (¬ _))

/-! ### What the rules forbid, and what the check finds -/

namespace TreeChange

/-- The path that stands first in an entry. -/
def leading : TreeChange → RepoPath
  | .tracked _ _ path _ => path
  | .renamed _ _ origin _ _ => origin
  | .untracked path => path
  | .untrackedDirectory directory _ _ _ => directory

/-- The names of an entry without quotes: those of the file, without the blanks at the end; the
directories of the origin of a renamed file; those of a directory without tracked files. -/
def namesSeen : TreeChange → List (List Char)
  | .tracked _ _ path _ | .untracked path =>
    path.directories.map String.toList ++ [path.name.toList.rdropWhile Text.isSpace]
  | .renamed _ _ origin _ _ => origin.directories.map String.toList
  | .untrackedDirectory directory _ _ _ => directory.names

/-- What is left of the first name: it loses a character where the first column is blank, and the
blanks that it then begins with. -/
def firstName (change : TreeChange) (name : List Char) : List Char :=
  (change.cut name).dropWhile Text.isSpace

/-- **A change is seen in a directory.** Quotes keep it from being seen, unless the first column is
blank: then the opening quote is what is cut off, and the directories follow as git prints them. -/
def SeenIn (git : GitQuoting) (change : TreeChange) (directory : String) : Prop :=
  if git.Quotes change.leading.chars then
    change.columns.1 = ' ' ∧ directory.toList.splitOn '/' <+:
      (change.leading.directories.map fun name => name.toList.flatMap git.escape).modifyHead
        (List.dropWhile Text.isSpace)
  else directory.toList.splitOn '/' <+: change.namesSeen.modifyHead change.firstName

/-- **A change is not read**: a file at the root whose name, without quotes, is blank, or has one
character only where the first column is blank. -/
def Unread (git : GitQuoting) (change : TreeChange) : Prop :=
  match change with
  | .tracked _ _ path _ | .untracked path =>
    ¬ git.Quotes path.chars ∧ path.directories = [] ∧
      change.cut (path.name.toList.rdropWhile Text.isSpace) = []
  | .renamed _ _ _ _ _ | .untrackedDirectory _ _ _ _ => False

instance (git : GitQuoting) (change : TreeChange) (directory : String) :
    Decidable (change.SeenIn git directory) := by
  unfold SeenIn
  infer_instance

instance (git : GitQuoting) (change : TreeChange) : Decidable (change.Unread git) := by
  cases change <;> (unfold Unread; infer_instance)

end TreeChange

namespace ExecutionPolicyRule

/-- **The rules forbid the changes**: too many files, or a file that lies, or lay, in a forbidden
directory. -/
def ViolatedBy (rules : ExecutionPolicyRule) (changes : List TreeChange) : Prop :=
  rules.maxChangedFiles < (changes.flatMap TreeChange.files).length ∨
    ∃ file ∈ changes.flatMap TreeChange.files, ∃ path ∈ file,
      ∃ directory ∈ rules.forbiddenDirectories, path.LiesIn directory

/-- **The check finds a violation**: too many entries that it reads, or one that it sees in a
forbidden directory. -/
def Finds (rules : ExecutionPolicyRule) (git : GitQuoting) (changes : List TreeChange) : Prop :=
  rules.maxChangedFiles < (changes.filter fun change => ¬ change.Unread git).length ∨
    ∃ change ∈ changes, ∃ directory ∈ rules.forbiddenDirectories, change.SeenIn git directory

instance (rules : ExecutionPolicyRule) (changes : List TreeChange) :
    Decidable (rules.ViolatedBy changes) :=
  inferInstanceAs (Decidable (_ ∨ _))

instance (rules : ExecutionPolicyRule) (git : GitQuoting) (changes : List TreeChange) :
    Decidable (rules.Finds git changes) :=
  inferInstanceAs (Decidable (_ ∨ _))

/-- The forbidden directories have names, without quotes and arrows. -/
def WellNamed (rules : ExecutionPolicyRule) : Prop :=
  ∀ directory ∈ rules.forbiddenDirectories, ∀ name ∈ directory.toList.splitOn '/',
    name ≠ [] ∧ '"' ∉ name ∧ '>' ∉ name

instance (rules : ExecutionPolicyRule) : Decidable rules.WellNamed := by
  unfold WellNamed
  infer_instance

/-- What a policy allows of changed files. -/
structure Admits (rules : ExecutionPolicyRule) (files : List String) : Prop where
  count : files.length ≤ rules.maxChangedFiles
  directories : ∀ file ∈ files, ∀ directory ∈ rules.forbiddenDirectories,
    Runtime.liesIn file directory = false

end ExecutionPolicyRule

/-- All rules are of that sort. -/
theorem wellNamed_defaultRulesByPolicy (policy : ToolExecutionPolicy) :
    (defaultRulesByPolicy policy).WellNamed := by
  cases policy <;> decide

/-! ### First names -/

section Names

variable {α : Type} {names forbidden more : List (List α)} {word : List α}

theorem modifyHead_append_cons (f : List α → List α) :
    ∃ word', (word' = word ∨ word' = f word) ∧
      (names ++ word :: more).modifyHead f = names.modifyHead f ++ word' :: more := by
  cases names with
  | nil => exact ⟨f word, Or.inr rfl, rfl⟩
  | cons first others => exact ⟨word, Or.inl rfl, rfl⟩

/-- A word that is not among the forbidden names ends the comparison. -/
theorem prefix_append_cons_iff (hword : word ∉ forbidden) :
    forbidden <+: names ++ word :: more ↔ forbidden <+: names := by
  refine ⟨fun h => ?_, fun h => h.trans (List.prefix_append _ _)⟩
  rcases List.prefix_or_prefix_of_prefix h (List.prefix_append names (word :: more)) with
    hshort | ⟨rest, rfl⟩
  · exact hshort
  · rw [List.prefix_append_right_inj] at h
    cases rest with
    | nil => exact (List.append_nil names).symm ▸ List.prefix_rfl
    | cons next rest =>
      have hnext : next = word := (List.cons_prefix_cons.mp h).1
      exact absurd (hnext ▸ List.mem_append_right names List.mem_cons_self) hword

theorem not_prefix_of_head {first : List α} (hne : forbidden ≠ []) (hfirst : first ∉ forbidden) :
    ¬ forbidden <+: first :: names := by
  cases forbidden with
  | nil => exact absurd rfl hne
  | cons next rest =>
    intro h
    exact hfirst ((List.cons_prefix_cons.mp h).1 ▸ List.mem_cons_self)

end Names

/-! ### Texts without blanks at the end -/

theorem mem_dropWhile_of_neg {p : Char → Bool} {c : Char} {cs : List Char} (hmem : c ∈ cs)
    (hc : p c = false) : c ∈ cs.dropWhile p := by
  rw [← List.takeWhile_append_dropWhile (p := p) (l := cs), List.mem_append] at hmem
  refine hmem.resolve_left fun hfront => ?_
  rw [List.mem_takeWhile_imp hfront] at hc
  cases hc

/-- The text ends without a blank. -/
def Trimmed (cs : List Char) : Prop := ∀ c ∈ cs.getLast?, Text.isSpace c = false

theorem trimmed_rdropWhile (cs : List Char) : Trimmed (cs.rdropWhile Text.isSpace) := by
  intro c hc
  obtain ⟨hne, rfl⟩ := List.mem_getLast?_eq_getLast hc
  exact Bool.eq_false_iff.mpr (List.rdropWhile_last_not Text.isSpace cs hne)

theorem Trimmed.rdropWhile {cs : List Char} (h : Trimmed cs) : cs.rdropWhile Text.isSpace = cs := by
  rw [List.rdropWhile_eq_self_iff]
  intro hne
  rw [h _ (List.getLast?_eq_getLast_of_ne_nil hne)]
  exact Bool.false_ne_true

theorem Trimmed.suffix {cs rest : List Char} (h : Trimmed cs) (hrest : rest <:+ cs) :
    Trimmed rest := by
  intro c hc
  obtain ⟨front, rfl⟩ := hrest
  exact h c (List.mem_getLast?_append_of_mem_getLast? hc)

theorem Trimmed.dropUnits {cs : List Char} (h : Trimmed cs) : Trimmed (Text.dropUnits 1 cs) := by
  cases cs with
  | nil => exact h
  | cons c cs =>
    have hrest : Trimmed cs := h.suffix (List.suffix_cons c cs)
    unfold Text.dropUnits
    split
    · exact hrest
    · intro d hd
      cases cs with
      | nil =>
        cases hd
        decide
      | cons e cs => exact hrest d hd

theorem Trimmed.eq_nil {cs : List Char} (h : Trimmed cs) (hblank : cs.dropWhile Text.isSpace = []) :
    cs = [] := by
  by_contra hne
  have hlast := List.dropWhile_eq_nil_iff.mp hblank _ (List.getLast_mem hne)
  rw [h _ (List.getLast?_eq_getLast_of_ne_nil hne)] at hlast
  cases hlast

/-! ### What is seen of an entry -/

namespace TreeChange

variable (git : GitQuoting) (change : TreeChange)

/-- What git prints behind the columns, without the blanks at the end. -/
def shownText : List Char := (change.printedPath git).rdropWhile Text.isSpace

theorem trimmed_cut {cs : List Char} (h : Trimmed cs) : Trimmed (change.cut cs) := by
  unfold cut
  split
  · exact h.dropUnits
  · exact h

theorem shownPath_toList :
    (change.shownPath git).toList = (change.cut (change.shownText git)).dropWhile Text.isSpace := by
  have htrimmed : Trimmed (change.cut (change.shownText git)) :=
    change.trimmed_cut (trimmed_rdropWhile _)
  rw [shownPath, trim_ofList, String.toList_ofList]
  exact (htrimmed.suffix (List.dropWhile_suffix _)).rdropWhile

/-- The names that the program compares. -/
theorem shownPath_names : (change.shownPath git).toList.splitOn '/' =
    ((change.cut (change.shownText git)).splitOn '/').modifyHead (List.dropWhile Text.isSpace) := by
  rw [shownPath_toList, Segments.splitOn_dropWhile (by decide)]

theorem shownPath_eq_empty_iff :
    change.shownPath git = "" ↔ change.cut (change.shownText git) = [] := by
  rw [← String.toList_eq_nil_iff, shownPath_toList]
  constructor
  · exact (change.trimmed_cut (trimmed_rdropWhile _)).eq_nil
  · intro h
    rw [h]
    rfl

/-- A character that is no blank stays where more than the first character is before it. -/
theorem mem_cut {c d : Char} {cs : List Char} (hmem : d ∈ cs) : d ∈ change.cut (c :: cs) := by
  unfold cut
  split
  · unfold Text.dropUnits
    split
    · exact hmem
    · exact List.mem_cons_of_mem _ hmem
  · exact List.mem_cons_of_mem _ hmem

/-- The cut falls into the first name. -/
theorem splitOn_cut {cs : List Char} (hhead : cs.head? ≠ some '/') :
    (change.cut cs).splitOn '/' = (cs.splitOn '/').modifyHead change.cut := by
  -- Only the first name is cut, since the path does not begin with a slash.
  by_cases hblank : change.columns.1 = ' '
  · have hcut : change.cut = Text.dropUnits 1 := by
      ext cs
      rw [cut, if_pos hblank]
    rw [hcut]
    cases cs with
    | nil => rfl
    | cons c cs =>
      have hslash : (c == '/') = false := beq_false_of_ne fun h => hhead (congrArg some h)
      rw [List.splitOn_cons_eq_if_modifyHead, hslash, if_neg Bool.false_ne_true,
        List.modifyHead_modifyHead]
      unfold Text.dropUnits
      split
      · next hunits =>
        have hsame : Text.dropUnits 1 ∘ List.cons c = id := by
          ext name : 1
          exact dropUnits_one hunits name
        rw [hsame, List.modifyHead_id]
        rfl
      · next hunits =>
        rw [List.splitOn_cons_eq_if_modifyHead]
        have hreplaced : Text.dropUnits 1 ∘ List.cons c = List.cons '\uFFFD' := by
          ext name : 1
          exact if_neg hunits
        rw [hreplaced]
        rfl
  · have hcut : change.cut = id := by
      ext cs
      rw [cut, if_neg hblank]
      rfl
    rw [hcut, List.modifyHead_id]
    rfl

/-! #### Entries in quotes -/

theorem printed_of_quotes {cs : List Char} (h : git.Quotes cs) :
    git.printed true cs = '"' :: cs.flatMap git.escape ++ ['"'] := by
  rw [GitQuoting.printed, if_neg fun hplain => h ⟨hplain.1, hplain.2 rfl⟩]
  rfl

theorem printed_of_not_quotes {cs : List Char} (h : ¬ git.Quotes cs) :
    git.printed true cs = cs := by
  have hplain := not_not.mp h
  exact if_pos ⟨hplain.1, fun _ => hplain.2⟩

/-- The slash at the end of a directory changes nothing. -/
theorem quotes_slash_iff {cs : List Char} : git.Quotes (cs ++ ['/']) ↔ git.Quotes cs := by
  have hblank : ' ' ∉ cs ++ ['/'] ↔ ' ' ∉ cs := by simp
  have hplain : git.Plain (cs ++ ['/']) ↔ git.Plain cs := by
    constructor
    · exact fun h c hc => h c (List.mem_append_left _ hc)
    · intro h c hc
      rcases List.mem_append.mp hc with hc | hc
      · exact h c hc
      · rw [List.mem_singleton.mp hc]
        exact git.escape_slash
  rw [GitQuoting.Quotes, GitQuoting.Quotes, hblank, hplain]

/-- A text in quotes, with anything behind it, keeps both quotes. -/
theorem rdropWhile_quoted (inner rear : List Char) : ∃ rest,
    ('"' :: inner ++ ['"'] ++ rear).rdropWhile Text.isSpace = '"' :: inner ++ '"' :: rest := by
  have hquote : ('"' :: inner ++ ['"']).rdropWhile Text.isSpace = '"' :: inner ++ ['"'] :=
    List.rdropWhile_concat_neg _ _ _ (by decide)
  rw [Segments.rdropWhile_append]
  split
  · exact ⟨[], hquote⟩
  · exact ⟨rear.rdropWhile Text.isSpace, by rw [List.append_assoc]; rfl⟩

/-- The names of a path as git prints them: the quote behind the path ends up in the last one. -/
theorem splitOn_escaped (path : RepoPath) (rear : List Char) : ∃ word more, '"' ∈ word ∧
    (path.chars.flatMap git.escape ++ '"' :: rear).splitOn '/' =
      (path.directories.map fun name => name.toList.flatMap git.escape) ++ word :: more := by
  have hdirectories : ∀ name ∈ (path.directories.map String.toList).map (List.flatMap git.escape),
      '/' ∉ name := by
    intro name hname
    obtain ⟨directory, hdirectory, rfl⟩ := List.mem_map.mp hname
    exact git.slash_not_mem_flatMap (path.slash_not_mem_of_directories directory hdirectory)
  have hname := git.slash_not_mem_flatMap path.slash_not_mem_name
  obtain ⟨first, others, hrear⟩ := List.exists_cons_of_ne_nil (List.splitOn_ne_nil '/' rear)
  refine ⟨path.name.toList.flatMap git.escape ++ '"' :: first, others, by simp, ?_⟩
  rw [RepoPath.chars, Segments.flatMap_joined git.escape_slash, ← Segments.joined_last_append,
    Segments.splitOn_joined_last hdirectories, Segments.splitOn_append_of_not_mem hname,
    ← List.singleton_append, Segments.splitOn_append_of_not_mem (by decide), hrear,
    List.map_map]
  rfl

/-- A path in quotes at the beginning of an entry. -/
theorem rdropWhile_printed_of_quotes (path : RepoPath) (rear : List Char)
    (h : git.Quotes path.chars) : ∃ rest,
    (git.printed true path.chars ++ rear).rdropWhile Text.isSpace = '"' :: rest ∧ '"' ∈ rest ∧
      ∃ word more, '"' ∈ word ∧ rest.splitOn '/' =
        (path.directories.map fun name => name.toList.flatMap git.escape) ++ word :: more := by
  obtain ⟨rest, hrest⟩ := rdropWhile_quoted (path.chars.flatMap git.escape) rear
  rw [printed_of_quotes git h, hrest]
  exact ⟨_, rfl, by simp, splitOn_escaped git path rest⟩

/-- **An entry in quotes**: the names of its leading path as git prints them, and something with a
quote after them. -/
theorem shownText_of_quotes (h : git.Quotes change.leading.chars) :
    ∃ rest, change.shownText git = '"' :: rest ∧ '"' ∈ rest ∧
      (change.columns.1 = ' ' → ∃ word more, '"' ∈ word ∧ rest.splitOn '/' =
        (change.leading.directories.map fun name => name.toList.flatMap git.escape) ++
          word :: more) := by
  unfold shownText
  cases change with
  | tracked index worktree path differs =>
    obtain ⟨rest, hrest, hquote, hsplit⟩ := rdropWhile_printed_of_quotes git path [] h
    rw [List.append_nil] at hrest
    exact ⟨rest, hrest, hquote, fun _ => hsplit⟩
  | renamed index worktree origin path differs =>
    obtain ⟨rest, hrest, hquote, hsplit⟩ := rdropWhile_printed_of_quotes git origin
      ([' ', '-', '>', ' '] ++ git.printed true path.chars) h
    rw [← List.append_assoc] at hrest
    exact ⟨rest, hrest, hquote, fun _ => hsplit⟩
  | untracked path =>
    obtain ⟨rest, hrest, hquote, hsplit⟩ := rdropWhile_printed_of_quotes git path [] h
    rw [List.append_nil] at hrest
    exact ⟨rest, hrest, hquote, fun _ => hsplit⟩
  | untrackedDirectory directory first others inside =>
    have hprinted := printed_of_quotes git ((quotes_slash_iff git).mpr h)
    obtain ⟨rest, hrest⟩ := rdropWhile_quoted ((directory.chars ++ ['/']).flatMap git.escape) []
    rw [List.append_nil] at hrest
    refine ⟨(directory.chars ++ ['/']).flatMap git.escape ++ '"' :: rest,
      (congrArg (List.rdropWhile Text.isSpace) hprinted).trans hrest, by simp, fun hblank => ?_⟩
    -- the first column of an untracked directory is not blank
    have hmark : '?' ≠ ' ' := by decide
    exact absurd hblank hmark

/-! #### Entries without quotes -/

theorem splitOn_rdropWhile_chars (path : RepoPath) :
    (path.chars.rdropWhile Text.isSpace).splitOn '/' =
      path.directories.map String.toList ++ [path.name.toList.rdropWhile Text.isSpace] := by
  rw [RepoPath.chars, Segments.rdropWhile_joined (by decide)]
  refine Segments.splitOn_joined path.slash_not_mem_of_directories fun hslash => ?_
  exact path.slash_not_mem_name ((List.rdropWhile_prefix Text.isSpace _).subset hslash)

/-- The arrow of a renamed file stays. -/
theorem rdropWhile_renamed (origin : RepoPath) (rear : List Char) : ∃ rest,
    (origin.chars ++ ([' ', '-', '>', ' '] ++ rear)).rdropWhile Text.isSpace =
      origin.chars ++ ([' ', '-', '>'] ++ rest) := by
  have harrow : (origin.chars ++ [' ', '-', '>']).rdropWhile Text.isSpace =
      origin.chars ++ [' ', '-', '>'] := by
    have hend : origin.chars ++ [' ', '-', '>'] = origin.chars ++ [' ', '-'] ++ ['>'] := by simp
    rw [hend]
    exact List.rdropWhile_concat_neg _ _ _ (by decide)
  have hsplit : origin.chars ++ ([' ', '-', '>', ' '] ++ rear) =
      (origin.chars ++ [' ', '-', '>']) ++ (' ' :: rear) := by simp
  rw [hsplit, Segments.rdropWhile_append]
  split
  · exact ⟨[], harrow⟩
  · exact ⟨_, List.append_assoc _ _ _⟩

theorem splitOn_renamed (origin : RepoPath) (rest : List Char) : ∃ word more, '>' ∈ word.tail ∧
    (origin.chars ++ ([' ', '-', '>'] ++ rest)).splitOn '/' =
      origin.directories.map String.toList ++ word :: more := by
  obtain ⟨first, others, hrest⟩ := List.exists_cons_of_ne_nil (List.splitOn_ne_nil '/' rest)
  refine ⟨origin.name.toList ++ ([' ', '-', '>'] ++ first), others, ?_, ?_⟩
  · obtain ⟨c, cs, hname⟩ := List.exists_cons_of_ne_nil origin.name_ne_nil
    simp [hname]
  · rw [RepoPath.chars, ← Segments.joined_last_append,
      Segments.splitOn_joined_last origin.slash_not_mem_of_directories,
      Segments.splitOn_append_of_not_mem origin.slash_not_mem_name,
      Segments.splitOn_append_of_not_mem (by decide), hrest]
    rfl

/-- What git prints of an entry without quotes: its leading path, and something more of a renamed
file and of a directory. -/
theorem printedPath_of_not_quotes (h : ¬ git.Quotes change.leading.chars) :
    change.printedPath git = change.leading.chars ++
      match change with
      | .tracked _ _ _ _ | .untracked _ => []
      | .renamed _ _ _ path _ => [' ', '-', '>', ' '] ++ git.printed true path.chars
      | .untrackedDirectory _ _ _ _ => ['/'] := by
  have hleading : git.printed true change.leading.chars = change.leading.chars :=
    printed_of_not_quotes git h
  cases change with
  | tracked index worktree path differs => exact hleading.trans (List.append_nil _).symm
  | untracked path => exact hleading.trans (List.append_nil _).symm
  | renamed index worktree origin path differs =>
    exact (List.append_assoc _ _ _).trans
      (congrArg (· ++ ([' ', '-', '>', ' '] ++ git.printed true path.chars)) hleading)
  | untrackedDirectory directory first others inside =>
    exact printed_of_not_quotes git (mt (quotes_slash_iff git).mp h)

/-- **An entry without quotes**: the names that are seen, and for a renamed file or a directory
something more that no forbidden directory has. -/
theorem shownText_of_not_quotes (h : ¬ git.Quotes change.leading.chars) :
    (change.shownText git).splitOn '/' = change.namesSeen ∨
      ∃ word more, (word = [] ∨ '>' ∈ word.tail) ∧
        (change.shownText git).splitOn '/' = change.namesSeen ++ word :: more := by
  rw [shownText, change.printedPath_of_not_quotes git h]
  cases change with
  | tracked index worktree path differs =>
    exact Or.inl ((List.append_nil path.chars).symm ▸ splitOn_rdropWhile_chars path)
  | untracked path =>
    exact Or.inl ((List.append_nil path.chars).symm ▸ splitOn_rdropWhile_chars path)
  | renamed index worktree origin path differs =>
    obtain ⟨rest, hrest⟩ := rdropWhile_renamed origin (git.printed true path.chars)
    obtain ⟨word, more, hword, hsplit⟩ := splitOn_renamed origin rest
    exact Or.inr ⟨word, more, Or.inr hword, (congrArg (List.splitOn '/') hrest).trans hsplit⟩
  | untrackedDirectory directory first others inside =>
    refine Or.inr ⟨[], [], Or.inl rfl, ?_⟩
    have hslash : (directory.chars ++ ['/']).rdropWhile Text.isSpace = directory.chars ++ ['/'] :=
      List.rdropWhile_concat_neg _ _ _ (by decide)
    show ((directory.chars ++ ['/']).rdropWhile Text.isSpace).splitOn '/' = _
    rw [hslash, List.splitOn_append_cons_self, directory.splitOn_chars]
    rfl

/-- No entry begins with a slash. -/
theorem head?_shownText_ne (h : ¬ git.Quotes change.leading.chars) :
    (change.shownText git).head? ≠ some '/' := by
  have hprefix : ∀ {cs front : List Char}, front <+: cs → cs.head? ≠ some '/' →
      front.head? ≠ some '/' := by
    rintro _ front ⟨rest, rfl⟩ hne hhead
    cases front with
    | nil => cases hhead
    | cons c front => exact hne hhead
  refine hprefix (List.rdropWhile_prefix Text.isSpace _) fun hhead => ?_
  obtain ⟨c, cs, hchars⟩ := List.exists_cons_of_ne_nil change.leading.chars_ne_nil
  rw [change.printedPath_of_not_quotes git h, hchars] at hhead
  exact change.leading.head?_chars_ne (hchars ▸ hhead)

/-! #### The comparison -/

theorem cut_of_filled (h : ¬ change.columns.1 = ' ') (cs : List Char) : change.cut cs = cs :=
  if_neg h

theorem cut_of_blank (h : change.columns.1 = ' ') (cs : List Char) :
    change.cut cs = Text.dropUnits 1 cs :=
  if_pos h

/-- Nothing is left of an empty name. -/
theorem firstName_nil : change.firstName [] = [] := by
  unfold firstName cut
  split <;> rfl

/-- A character that is no blank stays where another one is before it. -/
theorem mem_firstName {c d : Char} {cs : List Char} (hmem : d ∈ cs) (hd : Text.isSpace d = false) :
    d ∈ change.firstName (c :: cs) :=
  mem_dropWhile_of_neg (change.mem_cut hmem) hd

section Comparison

variable {forbidden : List (List Char)}

theorem not_mem_of_quote (hnames : ∀ name ∈ forbidden, name ≠ [] ∧ '"' ∉ name ∧ '>' ∉ name)
    {word : List Char} (hquote : '"' ∈ word) : word ∉ forbidden :=
  fun hmem => (hnames word hmem).2.1 hquote

/-- What the comparison sees of an entry in quotes. -/
theorem prefix_shownPath_of_quotes_iff (hne : forbidden ≠ [])
    (hnames : ∀ name ∈ forbidden, name ≠ [] ∧ '"' ∉ name ∧ '>' ∉ name)
    (h : git.Quotes change.leading.chars) :
    forbidden <+: (change.shownPath git).toList.splitOn '/' ↔ change.columns.1 = ' ' ∧
      forbidden <+: (change.leading.directories.map fun name =>
        name.toList.flatMap git.escape).modifyHead (List.dropWhile Text.isSpace) := by
  obtain ⟨rest, htext, -, hrest⟩ := change.shownText_of_quotes git h
  rw [shownPath_names, htext]
  by_cases hblank : change.columns.1 = ' '
  · -- the opening quote is cut off
    obtain ⟨word, more, hquote, hsplit⟩ := hrest hblank
    obtain ⟨word', hword', happend⟩ :=
      @modifyHead_append_cons _ _ more word (List.dropWhile Text.isSpace)
    have hquote' : '"' ∈ word' := by
      rcases hword' with rfl | rfl
      · exact hquote
      · exact mem_dropWhile_of_neg hquote (by decide)
    rw [change.cut_of_blank hblank, dropUnits_one (by decide), hsplit, happend,
      prefix_append_cons_iff (not_mem_of_quote hnames hquote')]
    exact (and_iff_right hblank).symm
  · -- the opening quote belongs to the first name
    refine iff_of_false ?_ fun h => hblank h.1
    obtain ⟨first, others, hfirst⟩ := List.exists_cons_of_ne_nil (List.splitOn_ne_nil '/' rest)
    have hslash : ('"' == '/') = false := by decide
    rw [change.cut_of_filled hblank, List.splitOn_cons_eq_if_modifyHead, hslash,
      if_neg Bool.false_ne_true, hfirst]
    exact not_prefix_of_head hne
      (not_mem_of_quote hnames (mem_dropWhile_of_neg List.mem_cons_self (by decide)))

/-- What the comparison sees of an entry without quotes. -/
theorem prefix_shownPath_of_not_quotes_iff
    (hnames : ∀ name ∈ forbidden, name ≠ [] ∧ '"' ∉ name ∧ '>' ∉ name)
    (h : ¬ git.Quotes change.leading.chars) :
    forbidden <+: (change.shownPath git).toList.splitOn '/' ↔
      forbidden <+: change.namesSeen.modifyHead change.firstName := by
  rw [shownPath_names, change.splitOn_cut (change.head?_shownText_ne git h),
    List.modifyHead_modifyHead]
  show _ <+: List.modifyHead change.firstName _ ↔ _
  rcases change.shownText_of_not_quotes git h with hsplit | ⟨word, more, hword, hsplit⟩
  · rw [hsplit]
  · obtain ⟨word', hword', happend⟩ := @modifyHead_append_cons _ _ more word change.firstName
    have hforeign : word' ∉ forbidden := by
      intro hmem
      rcases hword with rfl | harrow
      · -- what follows a directory is empty
        rw [firstName_nil, or_self] at hword'
        exact (hnames _ hmem).1 hword'
      · -- the arrow of a renamed file
        cases word with
        | nil => cases harrow
        | cons c cs =>
          refine (hnames _ hmem).2.2 ?_
          rcases hword' with rfl | rfl
          · exact List.mem_cons_of_mem c harrow
          · exact change.mem_firstName harrow (by decide)
    rw [hsplit, happend, prefix_append_cons_iff hforeign]

end Comparison

/-- **What the comparison sees** of a change. -/
theorem liesIn_shownPath_iff {directory : String}
    (hnames : ∀ name ∈ directory.toList.splitOn '/', name ≠ [] ∧ '"' ∉ name ∧ '>' ∉ name) :
    Runtime.liesIn (change.shownPath git) directory = true ↔ change.SeenIn git directory := by
  rw [liesIn_iff, SeenIn]
  split
  · next hquotes =>
    exact change.prefix_shownPath_of_quotes_iff git (List.splitOn_ne_nil '/' _) hnames hquotes
  · next hquotes => exact change.prefix_shownPath_of_not_quotes_iff git hnames hquotes

/-- Two characters, the second no blank, are not cut away together. -/
theorem cut_shownText_ne_nil {c d : Char} {cs : List Char} (hmem : d ∈ cs)
    (htext : change.shownText git = c :: cs) : change.cut (change.shownText git) ≠ [] := by
  intro hnil
  have hin : d ∈ change.cut (c :: cs) := change.mem_cut hmem
  rw [← htext, hnil] at hin
  cases hin

/-- What is left of a file without quotes, which lies at the root if it is nothing. -/
theorem cut_shownText_eq_nil_iff {path : RepoPath}
    (htext : change.shownText git = path.chars.rdropWhile Text.isSpace) :
    change.cut (change.shownText git) = [] ↔ path.directories = [] ∧
      change.cut (path.name.toList.rdropWhile Text.isSpace) = [] := by
  rw [RepoPath.chars, Segments.rdropWhile_joined (by decide)] at htext
  cases hdirectories : path.directories with
  | nil =>
    rw [htext, hdirectories]
    exact (and_iff_right rfl).symm
  | cons first others =>
    -- the slash behind the first directory stays
    have hfirst := path.segments_wellFormed first
      (List.mem_cons_of_mem _ (hdirectories ▸ List.mem_cons_self))
    obtain ⟨c, cs, hchars⟩ := List.exists_cons_of_ne_nil
      (mt String.toList_eq_nil_iff.mp hfirst.1)
    rw [hdirectories, List.map_cons, Segments.joined_cons, hchars, List.cons_append] at htext
    refine iff_of_false (change.cut_shownText_ne_nil git (d := '/') ?_ htext) fun h => ?_
    · exact List.mem_append_right cs List.mem_cons_self
    · cases h.1

/-- **Which entries are read.** -/
theorem shownPath_eq_empty_iff_unread : change.shownPath git = "" ↔ change.Unread git := by
  rw [shownPath_eq_empty_iff]
  by_cases hquotes : git.Quotes change.leading.chars
  · obtain ⟨rest, htext, hquote, -⟩ := change.shownText_of_quotes git hquotes
    refine iff_of_false (change.cut_shownText_ne_nil git hquote htext) ?_
    cases change with
    | tracked index worktree path differs | untracked path => exact fun h => h.1 hquotes
    | _ => exact id
  · cases change with
    | tracked index worktree path differs | untracked path =>
      refine (cut_shownText_eq_nil_iff git _ ?_).trans (and_iff_right hquotes).symm
      exact congrArg (List.rdropWhile Text.isSpace) (printed_of_not_quotes git hquotes)
    | renamed index worktree origin path differs =>
      obtain ⟨rest, hrest⟩ := rdropWhile_renamed origin (git.printed true path.chars)
      obtain ⟨c, cs, hchars⟩ := List.exists_cons_of_ne_nil origin.chars_ne_nil
      have harrow : '>' ∈ cs ++ ([' ', '-', '>'] ++ rest) := by simp
      refine iff_of_false (cut_shownText_ne_nil git _ (c := c) harrow ?_) id
      rw [shownText, printedPath_of_not_quotes git _ hquotes]
      exact hrest.trans (by rw [hchars]; rfl)
    | untrackedDirectory directory first others inside =>
      obtain ⟨c, cs, hchars⟩ := List.exists_cons_of_ne_nil directory.chars_ne_nil
      have hslash : '/' ∈ cs ++ ['/'] := List.mem_append_right cs List.mem_cons_self
      refine iff_of_false (cut_shownText_ne_nil git _ (c := c) hslash ?_) id
      rw [shownText, printedPath_of_not_quotes git _ hquotes]
      show (directory.chars ++ ['/']).rdropWhile Text.isSpace = _
      rw [hchars]
      exact List.rdropWhile_concat_neg _ _ _ (by decide)

end TreeChange

/-! ### The check -/

theorem checkChangedFiles_ok_iff {rules : ExecutionPolicyRule} {role : AgentRoleName}
    {files : List String} :
    Runtime.checkChangedFiles rules role files = .ok () ↔ rules.Admits files := by
  unfold Runtime.checkChangedFiles
  split
  · next hcount =>
    constructor
    · intro h
      cases h
    · intro h
      exact absurd h.count (by omega)
  · next hcount =>
    split
    · next file hfind =>
      constructor
      · intro h
        cases h
      · intro h
        have hforbidden : rules.forbiddenDirectories.any (Runtime.liesIn file) = true := by
          simpa using List.find?_some hfind
        obtain ⟨directory, hmem, hlies⟩ := List.any_eq_true.mp hforbidden
        have hnot := h.directories file (List.mem_of_find?_eq_some hfind) directory hmem
        rw [hlies] at hnot
        cases hnot
    · next hfind =>
      refine ⟨fun _ => ⟨by omega, fun file hfile directory hdirectory => ?_⟩, fun _ => rfl⟩
      have hnone := List.find?_eq_none.mp hfind file hfile
      rw [List.any_eq_true] at hnone
      cases hlies : Runtime.liesIn file directory with
      | false => rfl
      | true => exact absurd ⟨directory, hdirectory, hlies⟩ hnone

theorem not_admits_iff {rules : ExecutionPolicyRule} {files : List String} :
    ¬ rules.Admits files ↔ rules.maxChangedFiles < files.length ∨
      ∃ file ∈ files, ∃ directory ∈ rules.forbiddenDirectories,
        Runtime.liesIn file directory = true := by
  constructor
  · intro h
    by_contra hnone
    rw [not_or] at hnone
    refine h ⟨Nat.le_of_not_lt hnone.1, fun file hfile directory hdirectory => ?_⟩
    rw [← Bool.not_eq_true]
    exact fun hlies => hnone.2 ⟨file, hfile, directory, hdirectory, hlies⟩
  · rintro (hcount | ⟨file, hfile, directory, hdirectory, hlies⟩) h
    · exact absurd h.count (Nat.not_le.mpr hcount)
    · rw [h.directories file hfile directory hdirectory] at hlies
      cases hlies

/-- **What the check finds** in a listing. -/
theorem not_admits_porcelain_iff {rules : ExecutionPolicyRule} (hnamed : rules.WellNamed)
    (git : GitQuoting) (changes : List TreeChange) :
    ¬ rules.Admits (listedFiles (git.porcelain changes)) ↔ rules.Finds git changes := by
  have hlength : ((changes.map (TreeChange.shownPath git)).filter (· ≠ "")).length =
      (changes.filter fun change => ¬ change.Unread git).length := by
    rw [List.filter_map, List.length_map]
    refine congrArg List.length (List.filter_congr fun change _ => ?_)
    simp [change.shownPath_eq_empty_iff_unread git]
  rw [not_admits_iff, listedFiles_porcelain, hlength, ExecutionPolicyRule.Finds]
  refine or_congr_right ?_
  constructor
  · rintro ⟨file, hfile, directory, hdirectory, hlies⟩
    obtain ⟨change, hchange, rfl⟩ := List.mem_map.mp (List.mem_filter.mp hfile).1
    exact ⟨change, hchange, directory, hdirectory,
      (change.liesIn_shownPath_iff git (hnamed directory hdirectory)).mp hlies⟩
  · rintro ⟨change, hchange, directory, hdirectory, hseen⟩
    have hlies := (change.liesIn_shownPath_iff git (hnamed directory hdirectory)).mpr hseen
    refine ⟨change.shownPath git, List.mem_filter.mpr ⟨List.mem_map_of_mem hchange, ?_⟩,
      directory, hdirectory, hlies⟩
    -- nothing lies in a directory without having a name
    rw [decide_eq_true_iff]
    intro hempty
    rw [hempty, liesIn_iff] at hlies
    obtain ⟨name, names, hsplit⟩ :=
      List.exists_cons_of_ne_nil (List.splitOn_ne_nil '/' directory.toList)
    have hname := (hnamed directory hdirectory name (hsplit ▸ List.mem_cons_self)).1
    rw [hsplit] at hlies
    exact hname (List.cons_prefix_cons.mp hlies).1

/-- The check throws exactly where it finds a violation. -/
theorem checkChangedFiles_porcelain_iff {rules : ExecutionPolicyRule} (hnamed : rules.WellNamed)
    (role : AgentRoleName) (git : GitQuoting) (changes : List TreeChange) :
    (∃ error, Runtime.checkChangedFiles rules role (listedFiles (git.porcelain changes)) =
      .error error) ↔ rules.Finds git changes := by
  rw [← not_admits_porcelain_iff hnamed git changes, ← @checkChangedFiles_ok_iff rules role]
  cases Runtime.checkChangedFiles rules role (listedFiles (git.porcelain changes)) with
  | error error => exact iff_of_true ⟨error, rfl⟩ nofun
  | ok _ => exact iff_of_false nofun fun h => h rfl

end AiOrchestrator
