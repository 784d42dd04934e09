import AiOrchestrator.Execution.GitLifecycle
import AiOrchestrator.Execution.GitOutput

/-!
# The risk of changed paths

Which of its actions a commit asks approval for, by the paths that it changes (`RiskRule`):
the actions on security, on the production configuration and on the public interface have
names of directories and a rule on the name of the file. A path is a matter of the action when
one of its directories has such a name, wherever it stands, or when its file keeps the rule
(`RiskRule.Concerns`).

The program searches the printed paths for the names between two slashes. It therefore finds
a directory only below another one, and the name of a file only where git prints the path
without quotes: `RiskRule.Shown`. `outputLines_nameStatus` follows a commit through the
printing and the reading, and `risky_mem_iff` says for each action when it is reported.
-/

namespace AiOrchestrator

/-! ### Changes of a commit -/

/-- What a commit does to a path, where renames are not detected. -/
inductive ChangeStatus
  | added
  | modified
  | deleted
  | typeChanged
  deriving DecidableEq

/-- The letter of a status. -/
def ChangeStatus.letter : ChangeStatus → Char
  | .added => 'A'
  | .modified => 'M'
  | .deleted => 'D'
  | .typeChanged => 'T'

/-- A changed path of a commit. -/
structure PathChange where
  status : ChangeStatus
  path : RepoPath

namespace GitQuoting

variable (git : GitQuoting)

/-- A line of `git show --name-status`. -/
def nameStatusLine (change : PathChange) : List Char :=
  change.status.letter :: '\t' :: git.printed false change.path.chars

/-- What `git show --name-status --format= --no-renames` prints for the changes of a commit. -/
def nameStatus (changes : List PathChange) : String :=
  String.ofList (Segments.joined '\n' (changes.map git.nameStatusLine) [])

/-- A path as the program reads it: less the blanks at its end. -/
def seenPath (path : RepoPath) : String :=
  Text.trimEnd (String.ofList (git.printed false path.chars))

end GitQuoting

/-- What became of the reading of a commit. -/
inductive CommitRead
  | shown (changes : List PathChange)
  | failed (error : RuntimeError)

/-- What the command answers. -/
def CommitRead.answer (git : GitQuoting) : CommitRead → Except RuntimeError String
  | .shown changes => .ok (git.nameStatus changes)
  | .failed error => .error error

/-- The lines that the program makes of the answer. -/
def CommitRead.lines (git : GitQuoting) : CommitRead → List String
  | .shown changes => outputLines (git.nameStatus changes)
  | .failed _ => []

/-! ### Rules -/

/-- What makes a path a matter of an action: the name of one of its directories or the name of
its file. The names are in lower case. -/
structure RiskRule where
  directories : List String
  fileName : String → Bool
  /-- The program asks for a slash before the name of the file. -/
  belowDirectory : Bool

namespace RiskRule

/-- Security and authentication. -/
def security : RiskRule where
  directories := ["auth", "security"]
  fileName _ := false
  belowDirectory := false

/-- The configuration of production. -/
def production : RiskRule where
  directories := ["k8s", "helm", "deploy", "terraform"]
  fileName name := Text.endsWith name ".env"
  belowDirectory := false

/-- The public interface. -/
def api : RiskRule where
  directories := ["api", "public", "contracts"]
  fileName name := name = "index.ts"
  belowDirectory := true

/-- A path is a matter of the action. -/
def Concerns (rule : RiskRule) (path : RepoPath) : Prop :=
  (∃ directory ∈ path.directories, Text.lowerCase directory ∈ rule.directories) ∨
    rule.fileName (Text.lowerCase path.name) = true

/-- A path shows the program that it is a matter of the action: by a directory below another
one, whose name git prints as it is, or by the name of its file, less the blanks at its end,
where git prints the path without quotes. -/
def Shown (git : GitQuoting) (rule : RiskRule) (path : RepoPath) : Prop :=
  (∃ directory ∈ path.directories.tail, git.Plain directory.toList ∧
    Text.lowerCase directory ∈ rule.directories) ∨
  (git.Plain path.chars ∧ (rule.belowDirectory = true → path.directories ≠ []) ∧
    rule.fileName (Text.lowerCase (Text.trimEnd path.name)) = true)

instance (rule : RiskRule) (path : RepoPath) : Decidable (rule.Concerns path) :=
  inferInstanceAs (Decidable (_ ∨ _))

instance (git : GitQuoting) (rule : RiskRule) (path : RepoPath) :
    Decidable (rule.Shown git path) :=
  inferInstanceAs (Decidable (_ ∨ _))

end RiskRule

/-! ### Searching a printed path -/

namespace GitQuoting

variable (git : GitQuoting) (path : RepoPath)

theorem seenPath_toList :
    (git.seenPath path).toList = (git.printed false path.chars).rdropWhile Text.isSpace := by
  rw [seenPath, Text.trimEnd, String.toList_ofList, String.toList_ofList]
  rfl

theorem slash_not_mem_lower {cs : List Char} (h : '/' ∉ cs) : '/' ∉ cs.flatMap Text.lowerChar := by
  intro hmem
  obtain ⟨c, hc, hin⟩ := List.mem_flatMap.mp hmem
  exact h (Text.eq_of_mem_lowerChar (by decide) hin ▸ hc)

/-- The segments that a search of a printed path sees. -/
theorem lowerCase_seenPath_eq_joined :
    ∃ segments last, (Text.lowerCase (git.seenPath path)).toList =
        Segments.joined '/' segments last ∧
      (∀ s ∈ segments, '/' ∉ s) ∧ '/' ∉ last ∧
      segments.tail = path.directories.tail.map fun directory =>
        (directory.toList.flatMap git.escape).flatMap Text.lowerChar := by
  obtain ⟨segments, last, hjoined, hsegments, hlast, htail, -⟩ :=
    git.printed_eq_joined false path
  refine ⟨segments.map (List.flatMap Text.lowerChar),
    (last.rdropWhile Text.isSpace).flatMap Text.lowerChar, ?_, ?_, ?_, ?_⟩
  · rw [Text.lowerCase, String.toList_ofList, seenPath_toList, hjoined,
      Segments.rdropWhile_joined (by decide),
      Segments.flatMap_joined (show Text.lowerChar '/' = ['/'] by decide)]
  · intro s hs
    obtain ⟨segment, hmem, rfl⟩ := List.mem_map.mp hs
    exact slash_not_mem_lower (hsegments segment hmem)
  · refine slash_not_mem_lower fun hmem => hlast ?_
    exact (List.rdropWhile_prefix Text.isSpace last).subset hmem
  · rw [← List.map_tail, htail, List.map_map]
    rfl

/-- A name without a backslash is the lower case of what is printed only where it is printed
as it is. -/
theorem lower_escape_eq_iff {word : List Char} (hword : '\\' ∉ word) (cs : List Char) :
    (cs.flatMap git.escape).flatMap Text.lowerChar = word ↔
      git.Plain cs ∧ cs.flatMap Text.lowerChar = word := by
  constructor
  · intro h
    have hplain : git.Plain cs := by
      by_contra hnot
      refine hword ?_
      rw [← h]
      exact List.mem_flatMap.mpr ⟨'\\', git.backslash_mem_of_not_plain hnot, by decide⟩
    rw [git.flatMap_escape_of_plain hplain] at h
    exact ⟨hplain, h⟩
  · rintro ⟨hplain, h⟩
    rw [git.flatMap_escape_of_plain hplain, h]

/-- **The search for a directory**: it finds one that is not the first segment of the path. -/
theorem includes_directory_iff {word : String} (hslash : '/' ∉ word.toList)
    (hback : '\\' ∉ word.toList) :
    Text.includes (Text.lowerCase (git.seenPath path)) ("/" ++ word ++ "/") = true ↔
      ∃ directory ∈ path.directories.tail, git.Plain directory.toList ∧
        Text.lowerCase directory = word := by
  obtain ⟨segments, last, hjoined, hsegments, hlast, htail⟩ :=
    git.lowerCase_seenPath_eq_joined path
  have hneedle : ("/" ++ word ++ "/").toList = '/' :: word.toList ++ ['/'] := by
    simp
  rw [Text.includes_iff, hneedle, hjoined,
    Segments.delimited_infix_joined_iff hsegments hlast hslash, htail, List.mem_map]
  refine exists_congr fun directory => and_congr_right fun _ => ?_
  rw [git.lower_escape_eq_iff hback, Text.lowerCase, ← String.toList_inj, String.toList_ofList]

/-- A path between quotes ends with one, so that no other text is found at its end. -/
theorem not_endsWith_of_quoted (hplain : ¬ git.Plain path.chars) {word : String}
    (hne : word.toList ≠ []) (hquote : '"' ∉ word.toList) :
    ¬ word.toList <:+ (Text.lowerCase (git.seenPath path)).toList := by
  have hseen : (git.seenPath path).toList = git.quoted path.chars := by
    rw [seenPath_toList, printed, if_neg fun h => hplain h.1, quoted]
    exact List.rdropWhile_concat_neg _ _ _ (by decide)
  have hlower : (Text.lowerCase (git.seenPath path)).toList =
      ('"' :: path.chars.flatMap git.escape).flatMap Text.lowerChar ++ ['"'] := by
    rw [Text.lowerCase, String.toList_ofList, hseen, quoted, List.flatMap_append]
    rfl
  rw [hlower]
  intro hsuffix
  obtain ⟨front, final, hword⟩ := (List.eq_nil_or_concat word.toList).resolve_left hne
  obtain ⟨rest, hrest⟩ := hsuffix
  rw [hword, List.concat_eq_append, ← List.append_assoc] at hrest
  have hfinal : final = '"' := by simpa using (List.append_inj' hrest rfl).2
  refine hquote ?_
  rw [hword, hfinal]
  simp

/-- The text that the program searches, where git prints the path as it is. -/
theorem lowerCase_seenPath_of_plain (hplain : git.Plain path.chars) :
    (Text.lowerCase (git.seenPath path)).toList =
      Segments.joined '/' (path.directories.map fun d => d.toList.flatMap Text.lowerChar)
        (Text.lowerCase (Text.trimEnd path.name)).toList := by
  rw [Text.lowerCase, String.toList_ofList, seenPath_toList, printed,
    if_pos ⟨hplain, by simp⟩, RepoPath.chars, Segments.rdropWhile_joined (by decide),
    Segments.flatMap_joined (show Text.lowerChar '/' = ['/'] by decide), List.map_map, Text.lowerCase, String.toList_ofList,
    Text.trimEnd, String.toList_ofList]
  rfl

theorem slash_not_mem_trimmed_name :
    '/' ∉ (Text.lowerCase (Text.trimEnd path.name)).toList := by
  rw [Text.lowerCase, String.toList_ofList, Text.trimEnd, String.toList_ofList]
  refine slash_not_mem_lower fun hmem => path.slash_not_mem_name ?_
  exact (List.rdropWhile_prefix Text.isSpace path.name.toList).subset hmem

/-- **The search for the end of a file name.** -/
theorem endsWith_name_iff {word : String} (hne : word.toList ≠ []) (hslash : '/' ∉ word.toList)
    (hquote : '"' ∉ word.toList) :
    Text.endsWith (Text.lowerCase (git.seenPath path)) word = true ↔
      git.Plain path.chars ∧
        Text.endsWith (Text.lowerCase (Text.trimEnd path.name)) word = true := by
  rw [Text.endsWith, Text.endsWith, List.isSuffixOf_iff_suffix, List.isSuffixOf_iff_suffix]
  by_cases hplain : git.Plain path.chars
  · rw [git.lowerCase_seenPath_of_plain path hplain, Segments.suffix_joined_iff hslash]
    exact ⟨fun h => ⟨hplain, h⟩, And.right⟩
  · exact ⟨fun h => absurd h (git.not_endsWith_of_quoted path hplain hne hquote),
      fun h => absurd h.1 hplain⟩

/-- **The search for a file name after a slash.** -/
theorem endsWith_slash_name_iff {word : String} (hslash : '/' ∉ word.toList)
    (hquote : '"' ∉ word.toList) :
    Text.endsWith (Text.lowerCase (git.seenPath path)) ("/" ++ word) = true ↔
      git.Plain path.chars ∧ path.directories ≠ [] ∧
        Text.lowerCase (Text.trimEnd path.name) = word := by
  have hneedle : ("/" ++ word).toList = '/' :: word.toList := by simp
  rw [Text.endsWith, List.isSuffixOf_iff_suffix]
  by_cases hplain : git.Plain path.chars
  · rw [hneedle, git.lowerCase_seenPath_of_plain path hplain,
      Segments.delimited_suffix_joined_iff (slash_not_mem_trimmed_name path) hslash,
      String.toList_inj]
    simp [hplain]
  · refine ⟨fun h => absurd h (git.not_endsWith_of_quoted path hplain ?_ ?_),
      fun h => absurd h.1 hplain⟩
    · rw [hneedle]
      exact List.cons_ne_nil _ _
    · rw [hneedle]
      simpa using hquote

end GitQuoting

/-! ### Reading a commit -/

namespace GitQuoting

variable (git : GitQuoting)

/-- The line of a change, as the program trims it. -/
def trimmedLine (change : PathChange) : String :=
  Text.trimEnd (String.ofList (git.nameStatusLine change))

/-- A trimmed line has the letter of its status, and the path when there is more to it than
blanks. -/
theorem trimmedLine_toList (change : PathChange) :
    (git.trimmedLine change).toList =
      if (git.seenPath change.path).toList = [] then [change.status.letter]
      else change.status.letter :: '\t' :: (git.seenPath change.path).toList := by
  have hletter : Text.isSpace change.status.letter = false := by
    cases change.status <;> decide
  have hfront : [change.status.letter, '\t'].rdropWhile Text.isSpace =
      [change.status.letter] := by
    rw [show [change.status.letter, '\t'] = [change.status.letter] ++ ['\t'] from rfl,
      List.rdropWhile_concat_pos _ _ _ (by decide), List.rdropWhile_singleton,
      if_neg (by simp [hletter])]
  have hline : (git.trimmedLine change).toList =
      ([change.status.letter, '\t'] ++ git.printed false change.path.chars).rdropWhile
        Text.isSpace := by
    rw [trimmedLine, Text.trimEnd, String.toList_ofList, String.toList_ofList, nameStatusLine,
      List.rdropWhile, List.cons_append, List.cons_append, List.nil_append]
  rw [hline, Segments.rdropWhile_append, hfront, seenPath_toList]
  by_cases hempty : (git.printed false change.path.chars).rdropWhile Text.isSpace = []
  · rw [if_pos hempty, if_pos hempty]
  · rw [if_neg hempty, if_neg hempty, List.cons_append, List.cons_append, List.nil_append]

/-- **The lines of a commit.** -/
theorem outputLines_nameStatus (changes : List PathChange) :
    outputLines (git.nameStatus changes) = changes.map git.trimmedLine := by
  have hlines : ∀ line ∈ changes.map git.nameStatusLine, '\n' ∉ line := by
    intro line hline
    obtain ⟨change, -, rfl⟩ := List.mem_map.mp hline
    have hpath := git.control_not_mem_printed (d := '\n') (by decide) (by decide) false
      change.path.chars
    cases hstatus : change.status <;> simp [nameStatusLine, hstatus, ChangeStatus.letter, hpath]
  have htrim : ∀ change : PathChange,
      Text.trim (String.ofList (git.nameStatusLine change)) = git.trimmedLine change := by
    intro change
    have hletter : Text.isSpace change.status.letter = false := by
      cases change.status <;> decide
    rw [trimmedLine, Text.trimEnd, Text.trim, String.toList_ofList, nameStatusLine,
      List.dropWhile_cons_of_neg (by simp [hletter])]
  have hfilter : ∀ change : PathChange, git.trimmedLine change ≠ "" := by
    intro change hempty
    have hchars := git.trimmedLine_toList change
    rw [hempty] at hchars
    split at hchars <;> cases hchars
  rw [outputLines, nameStatus, Segments.splitOnChar_joined hlines, List.map_append,
    List.map_map, List.map_map, List.filter_append]
  have hend : (List.map Text.trim [""]).filter (· ≠ "") = [] := by decide
  rw [hend, List.append_nil, List.filter_eq_self.mpr]
  · exact List.map_congr_left fun change _ => htrim change
  · intro line hline
    obtain ⟨change, -, rfl⟩ := List.mem_map.mp hline
    have hne := hfilter change
    rw [← htrim] at hne
    simpa using hne

/-- What the program reads of a line. -/
theorem parseNameStatus_trimmedLine (change : PathChange) :
    parseNameStatus (git.trimmedLine change) =
      if git.seenPath change.path = "" then none
      else some (String.singleton change.status.letter, git.seenPath change.path) := by
  have htab : change.status.letter ≠ '\t' := by
    cases change.status <;> decide
  have hpath : '\t' ∉ (git.seenPath change.path).toList := by
    rw [seenPath_toList]
    intro hmem
    refine git.control_not_mem_printed (d := '\t') (by decide) (by decide) false
      change.path.chars ?_
    exact (List.rdropWhile_prefix _ _).subset hmem
  have hletter : String.ofList [change.status.letter] = String.singleton change.status.letter := by
    rfl
  have hsplit := git.trimmedLine_toList change
  unfold parseNameStatus Text.splitOnChar
  by_cases hempty : git.seenPath change.path = ""
  · rw [if_pos (String.toList_eq_nil_iff.mpr hempty)] at hsplit
    rw [hsplit, List.splitOn_eq_singleton (by simpa using Ne.symm htab), if_pos hempty]
    rfl
  · rw [if_neg fun h => hempty (String.toList_eq_nil_iff.mp h)] at hsplit
    have hparts : (change.status.letter :: '\t' :: (git.seenPath change.path).toList).splitOn
        '\t' = [[change.status.letter], (git.seenPath change.path).toList] := by
      have hstatus : '\t' ∉ [change.status.letter] := by simpa using Ne.symm htab
      have hhead := List.splitOn_append_cons_self_of_not_mem hstatus
        (git.seenPath change.path).toList
      rw [List.splitOn_eq_singleton hpath] at hhead
      exact hhead
    rw [hsplit, hparts, if_neg hempty]
    simp [hletter, hempty]

/-- **What is reported of a commit**: an action other than that on the number of files is
reported when one of the paths shows it. -/
theorem mem_detectRiskyActions_iff {action : ApprovalRequestedAction}
    (haction : action ≠ .bulkFileChange) (threshold : Nat) (changes : List PathChange) :
    action ∈ detectRiskyActions threshold (outputLines (git.nameStatus changes)) ↔
      ∃ change ∈ changes, git.seenPath change.path ≠ "" ∧
        action ∈ riskyActionsOfPath (String.singleton change.status.letter)
          (git.seenPath change.path) := by
  have hread : ∀ seen : String × String,
      seen ∈ (outputLines (git.nameStatus changes)).filterMap parseNameStatus ↔
        ∃ change ∈ changes, git.seenPath change.path ≠ "" ∧
          seen = (String.singleton change.status.letter, git.seenPath change.path) := by
    intro seen
    rw [git.outputLines_nameStatus, List.filterMap_map, List.mem_filterMap]
    refine exists_congr fun change => and_congr_right fun _ => ?_
    rw [Function.comp_apply, git.parseNameStatus_trimmedLine]
    by_cases hempty : git.seenPath change.path = ""
    · simp [hempty]
    · simp [hempty, eq_comm]
  have hbulk : ∀ n : Nat, action ∉
      (if threshold ≤ n then [ApprovalRequestedAction.bulkFileChange] else []) := by
    intro n hmem
    split at hmem
    · exact haction (List.mem_singleton.mp hmem)
    · cases hmem
  rw [detectRiskyActions, List.mem_eraseDups, List.mem_append]
  constructor
  · rintro (hmem | hmem)
    · obtain ⟨seen, hseen, hin⟩ := List.mem_flatMap.mp hmem
      obtain ⟨change, hchange, hne, rfl⟩ := (hread seen).mp hseen
      exact ⟨change, hchange, hne, hin⟩
    · exact absurd hmem (hbulk _)
  · rintro ⟨change, hchange, hne, hin⟩
    exact Or.inl (List.mem_flatMap.mpr ⟨_, (hread _).mpr ⟨change, hchange, hne, rfl⟩, hin⟩)

/-- A path of which nothing is seen: one segment of blanks, printed as it is. -/
theorem seenPath_eq_empty_iff (path : RepoPath) :
    git.seenPath path = "" ↔ git.Plain path.chars ∧ Text.isBlank path.text = true := by
  have hblank : Text.isBlank path.text = true ↔ ∀ c ∈ path.chars, Text.isSpace c = true := by
    rw [Text.isBlank, RepoPath.text, String.toList_ofList, List.all_eq_true]
  rw [← String.toList_eq_nil_iff, seenPath_toList, hblank, List.rdropWhile_eq_nil_iff]
  by_cases hplain : git.Plain path.chars
  · have hprinted : git.printed false path.chars = path.chars := by
      rw [printed, if_pos ⟨hplain, by simp⟩]
    rw [hprinted]
    exact ⟨fun h => ⟨hplain, h⟩, And.right⟩
  · -- the quote at the end is no blank
    refine ⟨fun h => ?_, fun h => absurd h.1 hplain⟩
    have hquote : '"' ∈ git.printed false path.chars := by
      rw [printed, if_neg fun h => hplain h.1, quoted]
      simp
    have hspace := h '"' hquote
    have hnot : Text.isSpace '"' = false := by decide
    rw [hnot] at hspace
    cases hspace

/-- A path of which nothing is seen shows no rule: it has no directory, and no name but
blanks. -/
theorem seenPath_ne_empty_of_shown {rule : RiskRule} (hblank : rule.fileName "" = false)
    {path : RepoPath} (h : rule.Shown git path) : git.seenPath path ≠ "" := by
  intro hempty
  obtain ⟨hplain, hspaces⟩ := (git.seenPath_eq_empty_iff path).mp hempty
  rw [Text.isBlank, RepoPath.text, String.toList_ofList, List.all_eq_true] at hspaces
  have hslash : '/' ∉ path.chars := fun hmem => by
    have hspace := hspaces _ hmem
    have hnot : Text.isSpace '/' = false := by decide
    rw [hnot] at hspace
    cases hspace
  have hdirs : path.directories = [] := by
    cases hcases : path.directories with
    | nil => rfl
    | cons first others =>
      refine absurd ?_ hslash
      rw [RepoPath.chars, hcases]
      simp
  rcases h with ⟨directory, hmem, -⟩ | ⟨-, -, hname⟩
  · rw [hdirs] at hmem
    cases hmem
  · have htrim : Text.trimEnd path.name = "" := by
      rw [← String.toList_eq_nil_iff, Text.trimEnd, String.toList_ofList]
      refine List.rdropWhile_eq_nil_iff.mpr fun c hc => hspaces c ?_
      exact List.mem_append_right _ hc
    rw [htrim] at hname
    have hlower : Text.lowerCase "" = "" := by decide
    rw [hlower, hblank] at hname
    cases hname

end GitQuoting

/-! ### The rules of the program -/

section Rules

variable (git : GitQuoting) (status : String) (path : RepoPath)

/-- The search for directories with one of several names. -/
theorem exists_includes_iff {words : List String}
    (hwords : ∀ word ∈ words, '/' ∉ word.toList ∧ '\\' ∉ word.toList) :
    (∃ word ∈ words,
      Text.includes (Text.lowerCase (git.seenPath path)) ("/" ++ word ++ "/") = true) ↔
    ∃ directory ∈ path.directories.tail, git.Plain directory.toList ∧
      Text.lowerCase directory ∈ words := by
  constructor
  · rintro ⟨word, hword, hincludes⟩
    obtain ⟨directory, hmem, hplain, hlower⟩ :=
      (git.includes_directory_iff path (hwords word hword).1 (hwords word hword).2).mp hincludes
    exact ⟨directory, hmem, hplain, hlower ▸ hword⟩
  · rintro ⟨directory, hmem, hplain, hword⟩
    exact ⟨_, hword, (git.includes_directory_iff path (hwords _ hword).1 (hwords _ hword).2).mpr
      ⟨directory, hmem, hplain, rfl⟩⟩

theorem mem_riskyActionsOfPath_security :
    .securityAuthChange ∈ riskyActionsOfPath status (git.seenPath path) ↔
      RiskRule.security.Shown git path := by
  have hsearch := exists_includes_iff git path
    (show ∀ word ∈ RiskRule.security.directories, '/' ∉ word.toList ∧ '\\' ∉ word.toList by
      decide)
  rw [RiskRule.Shown, ← hsearch]
  simp [riskyActionsOfPath, RiskRule.security]

theorem mem_riskyActionsOfPath_production :
    .productionConfigChange ∈ riskyActionsOfPath status (git.seenPath path) ↔
      RiskRule.production.Shown git path := by
  have hsearch := exists_includes_iff git path
    (show ∀ word ∈ RiskRule.production.directories, '/' ∉ word.toList ∧ '\\' ∉ word.toList by
      decide)
  have hname : Text.endsWith (Text.lowerCase (git.seenPath path)) ".env" = true ↔ _ :=
    git.endsWith_name_iff path (by decide) (by decide) (by decide)
  rw [RiskRule.Shown, ← hsearch]
  have hrule : (git.Plain path.chars ∧
      (RiskRule.production.belowDirectory = true → path.directories ≠ []) ∧
      RiskRule.production.fileName (Text.lowerCase (Text.trimEnd path.name)) = true) ↔
        Text.endsWith (Text.lowerCase (git.seenPath path)) ".env" = true := by
    rw [hname]
    simp [RiskRule.production]
  rw [hrule]
  simp only [riskyActionsOfPath, RiskRule.production]
  simp [or_assoc, or_comm, or_left_comm]

theorem mem_riskyActionsOfPath_api :
    .apiBreakingChange ∈ riskyActionsOfPath status (git.seenPath path) ↔
      RiskRule.api.Shown git path := by
  have hsearch := exists_includes_iff git path
    (show ∀ word ∈ RiskRule.api.directories, '/' ∉ word.toList ∧ '\\' ∉ word.toList by
      decide)
  have hname : Text.endsWith (Text.lowerCase (git.seenPath path)) ("/" ++ "index.ts") = true ↔ _ :=
    git.endsWith_slash_name_iff path (by decide) (by decide)
  rw [RiskRule.Shown, ← hsearch]
  have hrule : (git.Plain path.chars ∧
      (RiskRule.api.belowDirectory = true → path.directories ≠ []) ∧
      RiskRule.api.fileName (Text.lowerCase (Text.trimEnd path.name)) = true) ↔
        Text.endsWith (Text.lowerCase (git.seenPath path)) ("/" ++ "index.ts") = true := by
    rw [hname]
    simp [RiskRule.api]
  rw [hrule]
  simp only [riskyActionsOfPath, RiskRule.api]
  simp [or_assoc, or_comm, or_left_comm]

theorem mem_riskyActionsOfPath_delete (change : PathChange) :
    .fileDelete ∈ riskyActionsOfPath (String.singleton change.status.letter)
      (git.seenPath change.path) ↔ change.status = .deleted := by
  have hletter : Text.startsWith (String.singleton change.status.letter) "D" = true ↔
      change.status = .deleted := by
    have hword : "D".toList = ['D'] := by decide
    rw [Text.startsWith, hword, String.toList_singleton]
    cases change.status <;> simp [ChangeStatus.letter]
  rw [← hletter]
  simp [riskyActionsOfPath]

end Rules

end AiOrchestrator
